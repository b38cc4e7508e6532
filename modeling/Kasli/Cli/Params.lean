import Kasli.Data.OrderedMap
import Kasli.Text.Find

/-! The tool parameters of the command line (`parse_tool_params` of `kasli-cli/main.cpp`): items
`key=value`, read one after another into a map. The first `=` of an item ends its key, so a value
may have more of them, and the last item of a key counts. -/

namespace Kasli.Cli

def paramForm : Bytes := ascii "--param must use non-empty key=value form"

/-- One item of the loop. -/
def addParam (params : OrderedMap Bytes Bytes) (item : Bytes) :
    Except Bytes (OrderedMap Bytes Bytes) :=
  match find item [chr '='] with
  | none => .error paramForm
  | some separator =>
    if separator = 0 then .error paramForm
    else .ok (params.assign (item.take separator) (item.drop (separator + 1)))

def addParams (params : OrderedMap Bytes Bytes) : List Bytes → Except Bytes (OrderedMap Bytes Bytes)
  | [] => .ok params
  | item :: encoded =>
    match addParam params item with
    | .error what => .error what
    | .ok params => addParams params encoded

def parseToolParams (encoded : List Bytes) : Except Bytes (OrderedMap Bytes Bytes) :=
  addParams .empty encoded

/-! ### What is accepted -/

/-- A key that an item can have. -/
def IsKey (key : Bytes) : Prop := key ≠ [] ∧ chr '=' ∉ key

instance (key : Bytes) : Decidable (IsKey key) := inferInstanceAs (Decidable (_ ∧ _))

def encodeParam (param : Bytes × Bytes) : Bytes := param.1 ++ chr '=' :: param.2

section

variable {params : OrderedMap Bytes Bytes} {param : Bytes × Bytes} {item : Bytes}

theorem addParam_encode (h : IsKey param.1) :
    addParam params (encodeParam param) = .ok (params.assign param.1 param.2) := by
  have hfind : find (encodeParam param) [chr '='] = some param.1.length :=
    find_of_noStart (noStart_of_notMem h.2 _) ⟨param.2, rfl⟩
  have hdrop : (encodeParam param).drop (param.1.length + 1) = param.2 := by
    rw [encodeParam, List.drop_append, List.drop_eq_nil_of_le (Nat.le_succ _), List.nil_append,
      Nat.add_sub_cancel_left]
    rfl
  have htake : (encodeParam param).take param.1.length = param.1 := List.take_left
  rw [addParam, hfind]
  dsimp only
  rw [if_neg (mt List.length_eq_zero_iff.mp h.1), htake, hdrop]

/-- An item that is accepted is an encoded parameter. -/
theorem exists_of_addParam {params' : OrderedMap Bytes Bytes}
    (h : addParam params item = .ok params') :
    ∃ param : Bytes × Bytes, IsKey param.1 ∧ item = encodeParam param := by
  rw [addParam] at h
  cases hfind : find item [chr '='] with
  | none =>
    rw [hfind] at h
    cases h
  | some separator =>
    rw [hfind] at h
    dsimp only at h
    split_ifs at h with hzero
    have hitem := drop_eq_of_findFrom hfind
    have hnot := notMem_slice_of_findFrom hfind
    obtain ⟨-, hlen, -, -⟩ := findFrom_eq_some.mp hfind
    have hlength := length_slice (Nat.zero_le separator) hlen
    refine ⟨(slice item 0 separator, item.drop (separator + 1)), ⟨fun hnil => hzero ?_, hnot⟩,
      hitem⟩
    rw [← Nat.sub_zero separator, ← hlength]
    exact List.length_eq_zero_iff.mpr hnil

theorem addParams_encode {l : List (Bytes × Bytes)} (h : ∀ e ∈ l, IsKey e.1) :
    addParams params (l.map encodeParam) = .ok (l.foldl (fun m e => m.assign e.1 e.2) params) := by
  induction l generalizing params with
  | nil => rfl
  | cons e l ih =>
    rw [List.forall_mem_cons] at h
    rw [List.map_cons, addParams, addParam_encode h.1]
    exact ih h.2

theorem exists_of_addParams {encoded : List Bytes} {params' : OrderedMap Bytes Bytes}
    (h : addParams params encoded = .ok params') :
    ∃ l : List (Bytes × Bytes), (∀ e ∈ l, IsKey e.1) ∧ encoded = l.map encodeParam := by
  induction encoded generalizing params with
  | nil => exact ⟨[], by simp, rfl⟩
  | cons item encoded ih =>
    rw [addParams] at h
    cases hadd : addParam params item with
    | error what =>
      rw [hadd] at h
      cases h
    | ok params₁ =>
      rw [hadd] at h
      obtain ⟨e, he, rfl⟩ := exists_of_addParam hadd
      obtain ⟨l, hl, rfl⟩ := ih h
      exact ⟨e :: l, List.forall_mem_cons.mpr ⟨he, hl⟩, rfl⟩

end

theorem parseToolParams_encode {l : List (Bytes × Bytes)} (h : ∀ e ∈ l, IsKey e.1) :
    parseToolParams (l.map encodeParam) = .ok (.ofAssigns l) := addParams_encode h

/-- The items that are read are exactly those of parameters, and each key gets the value of its
last item; a map all of whose keys can be written is read from its entries in any order. -/
theorem parseToolParams_iff (encoded : List Bytes) (params : OrderedMap Bytes Bytes) :
    (parseToolParams encoded = .ok params ↔ ∃ l : List (Bytes × Bytes), (∀ e ∈ l, IsKey e.1) ∧
      encoded = l.map encodeParam ∧
      ∀ key, params.find? key = OrderedMap.lookup key l.reverse) ∧
    ((∀ e ∈ params.entries, IsKey e.1) → ∀ l : List (Bytes × Bytes), l.Perm params.entries →
      parseToolParams (l.map encodeParam) = .ok params) := by
  have hfind (l : List (Bytes × Bytes)) (key : Bytes) :
      (OrderedMap.ofAssigns l).find? key = OrderedMap.lookup key l.reverse := by
    rw [OrderedMap.ofAssigns, OrderedMap.find?_foldl_assign, OrderedMap.find?_empty,
      Option.or_none]
  constructor
  · constructor
    · intro h
      obtain ⟨l, hl, rfl⟩ := exists_of_addParams h
      obtain rfl := Except.ok.inj ((parseToolParams_encode hl).symm.trans h)
      exact ⟨l, hl, rfl, hfind l⟩
    · rintro ⟨l, hl, rfl, hkeys⟩
      rw [parseToolParams_encode hl]
      exact congrArg Except.ok (OrderedMap.eq_of_find? fun key => by rw [hfind, hkeys])
  · intro hkeys l hl
    rw [parseToolParams_encode fun e he => hkeys e (hl.mem_iff.mp he)]
    refine congrArg Except.ok (OrderedMap.eq_of_find? fun key => ?_)
    have hnodup : (l.reverse.map Prod.fst).Nodup := by
      rw [List.map_reverse, List.nodup_reverse]
      exact (hl.map Prod.fst).nodup_iff.mpr params.nodup_keys
    refine Option.ext fun value => ?_
    rw [hfind, OrderedMap.lookup_eq_some_of_nodup hnodup, List.mem_reverse, hl.mem_iff,
      OrderedMap.mem_entries_iff]

example : (parseToolParams [ascii "unit=ssh", ascii "unit=a=b"]).toOption =
    some (.ofList [(ascii "unit", ascii "a=b")]) := by decide +kernel

end Kasli.Cli
