import Kasli.Tools.MountInfo

/-! The lines that the kernel writes about mounts, and what `parse_mountinfo_line` reads in them.
Names are escaped, so that a field has no blank in it, and reading undoes the escapes. Only a
field that is empty is lost: fields are taken to be between blanks, however many. -/

namespace Kasli.Tools.Disk

/-! ### Escapes -/

/-- A backslash and three octal digits. -/
def octalEscape (b : UInt8) : Bytes :=
  [chr '\\', chr '0' + b / 64, chr '0' + b / 8 % 8, chr '0' + b % 8]

/-- The bytes that would end a field or a line, or begin an escape. -/
def IsEscaped (b : UInt8) : Prop := b = chr ' ' ∨ b = chr '\t' ∨ b = chr '\n' ∨ b = chr '\\'

instance (b : UInt8) : Decidable (IsEscaped b) := inferInstanceAs (Decidable (_ ∨ _))

/-- A name as the kernel writes it. -/
def escapeMountinfoValue (s : Bytes) : Bytes :=
  s.flatMap fun b => if IsEscaped b then octalEscape b else [b]

theorem escapeMountinfoValue_cons (b : UInt8) (s : Bytes) :
    escapeMountinfoValue (b :: s) =
      (if IsEscaped b then octalEscape b else [b]) ++ escapeMountinfoValue s :=
  List.flatMap_cons

theorem decodeMountinfoValue_of_short {s : Bytes} (h : s.length ≤ 3) :
    decodeMountinfoValue s = s := by
  match s, h with
  | [], _ => rfl
  | [_], _ => rfl
  | [_, _], _ => rfl
  | [_, _, _], _ => rfl

/-- A byte that begins no escape. -/
theorem decodeMountinfoValue_cons_of_ne {b : UInt8} (h : b ≠ chr '\\') (s : Bytes) :
    decodeMountinfoValue (b :: s) = b :: decodeMountinfoValue s := by
  match s with
  | [] => rfl
  | [_] => rfl
  | [_, _] => rfl
  | first :: second :: third :: rest => rw [decodeMountinfoValue, if_neg h]

/-- An escape is read as one byte, and reading goes on after it. -/
theorem decodeMountinfoValue_octalEscape {b : UInt8} (h : IsEscaped b) (s : Bytes) :
    decodeMountinfoValue (octalEscape b ++ s) = b :: decodeMountinfoValue s := by
  have hbyte : octalByte (chr '0' + b / 64) (chr '0' + b / 8 % 8) (chr '0' + b % 8) = some b := by
    rcases h with rfl | rfl | rfl | rfl
    · decide
    · decide
    · decide
    · decide
  simp only [octalEscape, List.cons_append, List.nil_append]
  rw [decodeMountinfoValue, if_pos rfl, hbyte]

theorem decodeMountinfoValue_escape (s : Bytes) :
    decodeMountinfoValue (escapeMountinfoValue s) = s := by
  induction s with
  | nil => rfl
  | cons b s ih =>
    rw [escapeMountinfoValue_cons]
    by_cases h : IsEscaped b
    · rw [if_pos h, decodeMountinfoValue_octalEscape h, ih]
    · have hb : b ≠ chr '\\' := fun hb => h (.inr (.inr (.inr hb)))
      rw [if_neg h, List.singleton_append, decodeMountinfoValue_cons_of_ne hb, ih]

/-- Reading goes on after the first byte or further on. -/
theorem decodeMountinfoValue_cons (b : UInt8) (s : Bytes) : ∃ c rest,
    rest.length ≤ s.length ∧ decodeMountinfoValue (b :: s) = c :: decodeMountinfoValue rest := by
  by_cases hb : b = chr '\\'
  · match s with
    | [] => exact ⟨b, [], le_rfl, rfl⟩
    | [first] => exact ⟨b, [first], le_rfl, rfl⟩
    | [first, second] => exact ⟨b, [first, second], le_rfl, rfl⟩
    | first :: second :: third :: rest =>
      cases hbyte : octalByte first second third with
      | some decoded =>
        refine ⟨decoded, rest, ?_, ?_⟩
        · simp only [List.length_cons]
          omega
        · rw [decodeMountinfoValue, if_pos hb, hbyte]
      | none =>
        refine ⟨b, first :: second :: third :: rest, le_rfl, ?_⟩
        rw [decodeMountinfoValue, if_pos hb, hbyte]
  · exact ⟨b, s, le_rfl, decodeMountinfoValue_cons_of_ne hb s⟩

theorem length_decodeMountinfoValue_le (s : Bytes) :
    (decodeMountinfoValue s).length ≤ s.length := by
  induction hn : s.length using Nat.strong_induction_on generalizing s with
  | _ n ih =>
    cases s with
    | nil => exact Nat.zero_le n
    | cons b s =>
      obtain ⟨c, rest, hrest, heq⟩ := decodeMountinfoValue_cons b s
      rw [List.length_cons] at hn
      have hle := ih rest.length (by omega) rest rfl
      rw [heq, List.length_cons]
      omega

theorem decodeMountinfoValue_ne_nil {s : Bytes} (h : s ≠ []) : decodeMountinfoValue s ≠ [] := by
  obtain ⟨b, s, rfl⟩ := List.exists_cons_of_ne_nil h
  obtain ⟨c, rest, -, heq⟩ := decodeMountinfoValue_cons b s
  rw [heq]
  exact List.cons_ne_nil c _

/-- A backslash too close to the end. -/
theorem decodeMountinfoValue_cons_of_short {s : Bytes} (h : s.length ≤ 2) (b : UInt8) :
    decodeMountinfoValue (b :: s) = b :: decodeMountinfoValue s := by
  rw [decodeMountinfoValue_of_short (by rw [List.length_cons]; omega),
    decodeMountinfoValue_of_short (by omega)]

/-! ### Positions -/

/-- The byte of the escape at a position, when there is one. There is no result when what is read
is past the end. -/
def escapeAt (value : Bytes) (index : ℕ) : Option (Option UInt8) := do
  if (← value[index]?) = chr '\\' ∧ index + 3 < value.length then
    return octalByte (← value[index + 1]?) (← value[index + 2]?) (← value[index + 3]?)
  else return none

/-- The loop of `decode_mountinfo_value` from a position on, given what was decoded. -/
def decodeMountinfoFrom (value : Bytes) (index : ℕ) (output : Bytes) : Option Bytes :=
  if index < value.length then do
    match ← escapeAt value index with
    | some decoded => decodeMountinfoFrom value (index + 4) (output ++ [decoded])
    | none => decodeMountinfoFrom value (index + 1) (output ++ [← value[index]?])
  else return output
termination_by value.length - index

/-- What is looked at is there, and it tells how the text from the position on is decoded. -/
theorem escapeAt_eq {value : Bytes} {index : ℕ} (h : index < value.length) :
    ∃ escape, escapeAt value index = some escape ∧
      decodeMountinfoValue (value.drop index) = match escape with
        | some decoded => decoded :: decodeMountinfoValue (value.drop (index + 4))
        | none => value[index] :: decodeMountinfoValue (value.drop (index + 1)) := by
  have hfirst : value.drop index = value[index] :: value.drop (index + 1) :=
    List.drop_eq_getElem_cons h
  by_cases hescape : value[index] = chr '\\' ∧ index + 3 < value.length
  · obtain ⟨hslash, hlen⟩ := hescape
    have hnext (k : ℕ) (hk : k ≤ 3) :
        value.drop (index + k) = value[index + k] :: value.drop (index + (k + 1)) :=
      List.drop_eq_getElem_cons (by omega)
    refine ⟨octalByte value[index + 1] value[index + 2] value[index + 3], ?_, ?_⟩
    · simp [escapeAt, h, hslash, hlen, show index + 1 < value.length by omega,
        show index + 2 < value.length by omega]
    · rw [hfirst, hnext 1 (by omega), hnext 2 (by omega), hnext 3 (by omega), hslash,
        decodeMountinfoValue]
      cases octalByte value[index + 1] value[index + 2] value[index + 3] with
      | some decoded => exact if_pos rfl
      | none => exact if_pos rfl
  · refine ⟨none, by simp only [escapeAt, List.getElem?_eq_getElem h, Option.bind_eq_bind,
      Option.bind_some, if_neg hescape]; rfl, ?_⟩
    rw [hfirst]
    by_cases hslash : value[index] = chr '\\'
    · have hshort : ¬ index + 3 < value.length := fun hlen => hescape ⟨hslash, hlen⟩
      exact decodeMountinfoValue_cons_of_short (by rw [List.length_drop]; omega) _
    · exact decodeMountinfoValue_cons_of_ne hslash _

/-- The loop reads nothing past the end, and does to what it has not looked at what is said of a
whole text. -/
theorem decodeMountinfoFrom_eq (value : Bytes) (index : ℕ) (output : Bytes) :
    decodeMountinfoFrom value index output =
      some (output ++ decodeMountinfoValue (value.drop index)) := by
  induction hn : value.length - index using Nat.strongRecOn generalizing index output with
  | ind n ih =>
    rw [decodeMountinfoFrom]
    by_cases h : index < value.length
    · obtain ⟨escape, hescape, hdecode⟩ := escapeAt_eq h
      rw [if_pos h, hescape, hdecode]
      cases escape with
      | some decoded =>
        exact (ih _ (by omega) (index + 4) _ rfl).trans (by rw [List.append_assoc]; rfl)
      | none =>
        simp only [List.getElem?_eq_getElem h, Option.bind_eq_bind, Option.bind_some]
        exact (ih _ (by omega) (index + 1) _ rfl).trans (by rw [List.append_assoc]; rfl)
    · rw [if_neg h, List.drop_eq_nil_of_le (by omega)]
      simp [decodeMountinfoValue]

/-- Reading a name undoes the escapes that it is written with; the reading stays within any text
and makes it no longer. -/
theorem mountinfo_decode_escape :
    (∀ s, decodeMountinfoFrom (escapeMountinfoValue s) 0 [] = some s) ∧
      ∀ value, ∃ output, decodeMountinfoFrom value 0 [] = some output ∧
        output = decodeMountinfoValue value ∧ output.length ≤ value.length := by
  have hloop (value : Bytes) :
      decodeMountinfoFrom value 0 [] = some (decodeMountinfoValue value) :=
    decodeMountinfoFrom_eq value 0 []
  refine ⟨fun s => ?_, fun value => ⟨_, hloop value, rfl, length_decodeMountinfoValue_le value⟩⟩
  rw [hloop, decodeMountinfoValue_escape]

/-! ### Lines -/

theorem mem_splitSpaces {value field : Bytes} (h : field ∈ splitSpaces value) : field ≠ [] :=
  of_decide_eq_true (List.mem_filter.mp h).2

/-- Nothing that is read is empty. -/
theorem parseMountinfoLine_ne_nil {line : Bytes} {mount : DiskMountInfo}
    (h : parseMountinfoLine line = some mount) :
    mount.mountPoint ≠ [] ∧ mount.fsType ≠ [] ∧ mount.source ≠ [] := by
  have hfield {n : ℕ} {field : Bytes} (hn : (splitSpaces line)[n]? = some field) :
      decodeMountinfoValue field ≠ [] :=
    decodeMountinfoValue_ne_nil (mem_splitSpaces (List.mem_of_getElem? hn))
  simp only [parseMountinfoLine, Option.bind_eq_bind] at h
  split_ifs at h
  obtain ⟨separator, -, h⟩ := Option.bind_eq_some_iff.mp h
  split_ifs at h
  obtain ⟨point, hpoint, h⟩ := Option.bind_eq_some_iff.mp h
  obtain ⟨type, htype, h⟩ := Option.bind_eq_some_iff.mp h
  obtain ⟨source, hsource, h⟩ := Option.bind_eq_some_iff.mp h
  obtain rfl := Option.some.inj h
  exact ⟨hfield hpoint, hfield htype, hfield hsource⟩

/-- The first place of what has not come before. -/
theorem idxOf?_append_cons {l r : List Bytes} {a : Bytes} (h : a ∉ l) :
    (l ++ a :: r).idxOf? a = some l.length := by
  induction l with
  | nil => simp [List.idxOf?_cons]
  | cons b l ih =>
    rw [List.mem_cons, not_or] at h
    obtain ⟨hb, hl⟩ := h
    rw [List.cons_append, List.idxOf?_cons, ih hl]
    simp [Ne.symm hb]

/-- A field that is not a name. -/
def IsPlainField (field : Bytes) : Prop := field ≠ [] ∧ chr ' ' ∉ field ∧ field ≠ ascii "-"

instance (field : Bytes) : Decidable (IsPlainField field) := inferInstanceAs (Decidable (_ ∧ _))

/-- What a line of the kernel says of a mount. -/
structure MountLine where
  mountId : Bytes
  parentId : Bytes
  device : Bytes
  root : Bytes
  mountPoint : Bytes
  mountOptions : Bytes
  optionalFields : List Bytes
  fsType : Bytes
  source : Bytes
  superOptions : List Bytes
  plain : ∀ field ∈ [mountId, parentId, device, root, mountOptions] ++
    optionalFields ++ superOptions,
    IsPlainField field
  absolute : ascii "/" <+: mountPoint
  typed : fsType ≠ []
  optioned : superOptions ≠ []

namespace MountLine

variable (mount : MountLine)

/-- The fields before the dash. -/
def mountFields : List Bytes :=
  [mount.mountId, mount.parentId, mount.device, mount.root, escapeMountinfoValue mount.mountPoint,
    mount.mountOptions] ++ mount.optionalFields

/-- The fields after the dash. -/
def sourceFields : List Bytes :=
  [escapeMountinfoValue mount.fsType, escapeMountinfoValue mount.source] ++ mount.superOptions

/-- The line as the kernel writes it. -/
def text : Bytes :=
  [chr ' '].intercalate (mount.mountFields ++ ascii "-" :: mount.sourceFields)

theorem notMem_blank_escapeMountinfoValue (s : Bytes) : chr ' ' ∉ escapeMountinfoValue s := by
  rw [escapeMountinfoValue, List.mem_flatMap]
  rintro ⟨b, -, hb⟩
  split_ifs at hb with h
  · revert hb
    rcases h with rfl | rfl | rfl | rfl
    · decide
    · decide
    · decide
    · decide
  · exact h (.inl (List.mem_singleton.mp hb).symm)

theorem escapeMountinfoValue_eq_nil {s : Bytes} : escapeMountinfoValue s = [] ↔ s = [] := by
  constructor
  · intro h
    rw [← decodeMountinfoValue_escape s, h]
    rfl
  · rintro rfl
    rfl

/-- No field has a blank in it. -/
theorem notMem_blank_fields : ∀ field ∈ mount.mountFields ++ ascii "-" :: mount.sourceFields,
    chr ' ' ∉ field := by
  have hplain := mount.plain
  have hescape := notMem_blank_escapeMountinfoValue
  simp only [List.forall_mem_append, List.forall_mem_cons] at hplain
  obtain ⟨⟨⟨hid, hparent, hdevice, hroot, hoptions, -⟩, hoptional⟩, hsuper⟩ := hplain
  simp only [mountFields, sourceFields, List.forall_mem_append, List.forall_mem_cons]
  exact ⟨⟨⟨hid.2.1, hparent.2.1, hdevice.2.1, hroot.2.1, hescape _, hoptions.2.1, by simp⟩,
    fun field hfield => (hoptional field hfield).2.1⟩, by decide, ⟨hescape _, hescape _, by simp⟩,
    fun field hfield => (hsuper field hfield).2.1⟩

/-- The fields are what is between the blanks. -/
theorem splitOn_text : mount.text.splitOn (chr ' ') =
    mount.mountFields ++ ascii "-" :: mount.sourceFields :=
  List.splitOn_intercalate _ mount.notMem_blank_fields (by simp)

/-- The fields are read back, but for an empty one. -/
theorem splitSpaces_text : splitSpaces mount.text =
    (mount.mountFields ++ ascii "-" :: mount.sourceFields).filter (· ≠ []) := by
  rw [splitSpaces, splitOn_text]

/-- What stands before the dash is not one. -/
theorem notMem_dash_mountFields : ascii "-" ∉ mount.mountFields := by
  have hplain := mount.plain
  simp only [List.forall_mem_append, List.forall_mem_cons] at hplain
  obtain ⟨⟨⟨hid, hparent, hdevice, hroot, hoptions, -⟩, hoptional⟩, -⟩ := hplain
  have hpoint : escapeMountinfoValue mount.mountPoint ≠ ascii "-" := by
    obtain ⟨rest, hrest⟩ := mount.absolute
    rw [← hrest]
    intro h
    exact absurd (List.cons.inj h).1 (by decide)
  simp only [mountFields, List.mem_append, List.mem_cons, not_or]
  exact ⟨⟨hid.2.2.symm, hparent.2.2.symm, hdevice.2.2.symm, hroot.2.2.symm, hpoint.symm,
    hoptions.2.2.symm, by simp⟩, fun hmem => (hoptional _ hmem).2.2 rfl⟩

theorem escape_ne_nil {s : Bytes} (h : s ≠ []) : escapeMountinfoValue s ≠ [] :=
  fun hnil => h (escapeMountinfoValue_eq_nil.mp hnil)

theorem mountFields_ne_nil : ∀ field ∈ mount.mountFields, field ≠ [] := by
  have hplain := mount.plain
  have hpoint : mount.mountPoint ≠ [] := by
    obtain ⟨rest, hrest⟩ := mount.absolute
    rw [← hrest]
    exact List.cons_ne_nil _ _
  simp only [List.forall_mem_append, List.forall_mem_cons] at hplain
  obtain ⟨⟨⟨hid, hparent, hdevice, hroot, hoptions, -⟩, hoptional⟩, -⟩ := hplain
  simp only [mountFields, List.forall_mem_append, List.forall_mem_cons]
  exact ⟨⟨hid.1, hparent.1, hdevice.1, hroot.1, escape_ne_nil hpoint, hoptions.1, by simp⟩,
    fun field hfield => (hoptional field hfield).1⟩

theorem fields_ne_nil (h : mount.source ≠ []) :
    ∀ field ∈ mount.mountFields ++ ascii "-" :: mount.sourceFields, field ≠ [] := by
  have hplain := mount.plain
  simp only [List.forall_mem_append] at hplain
  simp only [sourceFields, List.forall_mem_append, List.forall_mem_cons]
  exact ⟨mount.mountFields_ne_nil, by decide,
    ⟨escape_ne_nil mount.typed, escape_ne_nil h, by simp⟩,
    fun field hfield => (hplain.2 field hfield).1⟩

/-- The mount that the line describes. -/
def info : DiskMountInfo := ⟨mount.mountPoint, mount.fsType, mount.source⟩

/-- A line describes one mount. -/
theorem info_eq_of_text_eq {mount mount' : MountLine} (h : mount.text = mount'.text) :
    mount.info = mount'.info := by
  have hescape {s t : Bytes} (hst : escapeMountinfoValue s = escapeMountinfoValue t) : s = t := by
    rw [← decodeMountinfoValue_escape s, hst, decodeMountinfoValue_escape]
  have hfields : mount.mountFields ++ ascii "-" :: mount.sourceFields =
      mount'.mountFields ++ ascii "-" :: mount'.sourceFields := by
    rw [← splitOn_text, h, splitOn_text]
  -- the first dash ends the fields of the mount
  have hdash := congrArg (List.idxOf? (ascii "-")) hfields
  rw [idxOf?_append_cons mount.notMem_dash_mountFields,
    idxOf?_append_cons mount'.notMem_dash_mountFields, Option.some_inj] at hdash
  obtain ⟨hbefore, hafter⟩ := List.append_inj hfields hdash
  have hpoint : some (escapeMountinfoValue mount.mountPoint) =
      some (escapeMountinfoValue mount'.mountPoint) := congrArg (fun fields => fields[4]?) hbefore
  obtain ⟨htype, hafter⟩ := List.cons.inj (List.cons.inj hafter).2
  obtain ⟨hsource, -⟩ := List.cons.inj hafter
  rw [info, info, hescape (Option.some.inj hpoint), hescape htype, hescape hsource]

/-- Whatever is read of the line, its mount point and its type are. -/
theorem parse_text_names {info : DiskMountInfo} (h : parseMountinfoLine mount.text = some info) :
    info.mountPoint = mount.mountPoint ∧ info.fsType = mount.fsType := by
  obtain ⟨rest, hfields⟩ : ∃ rest, splitSpaces mount.text = mount.mountFields ++
      ascii "-" :: escapeMountinfoValue mount.fsType :: rest := by
    have hbefore : mount.mountFields.filter (· ≠ []) = mount.mountFields :=
      List.filter_eq_self.mpr fun field hfield =>
        decide_eq_true (mount.mountFields_ne_nil field hfield)
    refine ⟨(escapeMountinfoValue mount.source :: mount.superOptions).filter (· ≠ []), ?_⟩
    have htype := decide_eq_true (escape_ne_nil mount.typed)
    rw [splitSpaces_text, List.filter_append, hbefore, List.filter_cons_of_pos (by decide)]
    exact congrArg (mount.mountFields ++ ascii "-" :: ·) (List.filter_cons_of_pos htype)
  have hseparator : (splitSpaces mount.text).idxOf? (ascii "-") =
      some mount.mountFields.length := by
    rw [hfields, idxOf?_append_cons mount.notMem_dash_mountFields]
  have hpoint : (splitSpaces mount.text)[4]? = some (escapeMountinfoValue mount.mountPoint) := by
    rw [hfields]
    rfl
  have htype : (splitSpaces mount.text)[mount.mountFields.length + 1]? =
      some (escapeMountinfoValue mount.fsType) := by
    rw [hfields, List.getElem?_append_right (by omega), Nat.add_sub_cancel_left]
    rfl
  simp only [parseMountinfoLine, hseparator, hpoint, htype, Option.bind_eq_bind, Option.bind_some,
    decodeMountinfoValue_escape] at h
  split_ifs at h
  obtain ⟨source, -, h⟩ := Option.bind_eq_some_iff.mp h
  obtain rfl := Option.some.inj h
  exact ⟨rfl, rfl⟩

/-- With a source, the line is read as what it describes. -/
theorem parse_text (h : mount.source ≠ []) : parseMountinfoLine mount.text = some mount.info := by
  have hfields : splitSpaces mount.text = mount.mountFields ++ ascii "-" :: mount.sourceFields := by
    rw [splitSpaces_text, List.filter_eq_self]
    intro field hfield
    exact decide_eq_true (mount.fields_ne_nil h field hfield)
  have hsuper := List.length_pos_of_ne_nil mount.optioned
  have hbefore : mount.mountFields.length = 6 + mount.optionalFields.length := by
    rw [mountFields, List.length_append]
    rfl
  have hlength : (splitSpaces mount.text).length =
      mount.mountFields.length + 3 + mount.superOptions.length := by
    rw [hfields, sourceFields, List.length_append, List.length_cons, List.length_append]
    simp only [List.length_cons, List.length_nil]
    omega
  have hseparator : (splitSpaces mount.text).idxOf? (ascii "-") =
      some mount.mountFields.length := by
    rw [hfields, idxOf?_append_cons mount.notMem_dash_mountFields]
  have hpoint : (splitSpaces mount.text)[4]? = some (escapeMountinfoValue mount.mountPoint) := by
    rw [hfields]
    rfl
  have htype : (splitSpaces mount.text)[mount.mountFields.length + 1]? =
      some (escapeMountinfoValue mount.fsType) := by
    rw [hfields, List.getElem?_append_right (by omega), Nat.add_sub_cancel_left]
    rfl
  have hsource : (splitSpaces mount.text)[mount.mountFields.length + 2]? =
      some (escapeMountinfoValue mount.source) := by
    rw [hfields, List.getElem?_append_right (by omega), Nat.add_sub_cancel_left]
    rfl
  rw [parseMountinfoLine]
  simp only [hseparator, hpoint, htype, hsource, Option.bind_eq_bind, Option.bind_some,
    decodeMountinfoValue_escape]
  rw [if_neg (by omega), if_neg (by omega)]
  rfl

/-- A line is read as the mount it describes exactly when the mount has a source. -/
theorem parse_text_iff : parseMountinfoLine mount.text = some mount.info ↔ mount.source ≠ [] :=
  ⟨fun h => (parseMountinfoLine_ne_nil h).2.2, mount.parse_text⟩

theorem readWrite_ne_nil : [ascii "rw"] ≠ [] := List.cons_ne_nil _ _

/-- A mount whose source is the empty string. -/
def sourceless : MountLine where
  mountId := ascii "36"
  parentId := ascii "35"
  device := ascii "0:31"
  root := ascii "/"
  mountPoint := ascii "/run"
  mountOptions := ascii "rw"
  optionalFields := [ascii "shared:7"]
  fsType := ascii "fuse"
  source := []
  superOptions := [ascii "rw"]
  plain := by decide
  absolute := by decide
  typed := by decide
  optioned := readWrite_ne_nil

/-- Its line has too few fields between the blanks. -/
theorem sourceless_not_read : parseMountinfoLine sourceless.text = none ∧
    ¬ ∀ mount : MountLine, parseMountinfoLine mount.text = some mount.info := by
  have hnone : parseMountinfoLine sourceless.text = none := by decide +kernel
  refine ⟨hnone, fun h => ?_⟩
  rw [h sourceless] at hnone
  cases hnone

end MountLine

end Kasli.Tools.Disk
