import Kasli.Text.Numerals
import Kasli.Tools.Directories

/-! What the kernel says of the network: the table of `/proc/net/route` and the files below
`/sys/class/net`. The network summary reads all of it back, except that an interface with the name
that the table begins with is never found to have the default route. -/

namespace Kasli.Tools.Network

/-! ### Fields -/

/-- A field of a line. -/
def IsField (field : Bytes) : Prop := field ≠ [] ∧ ∀ b ∈ field, isSpace b = false

instance (field : Bytes) : Decidable (IsField field) := inferInstanceAs (Decidable (_ ∧ _))

theorem isField_numeral {base width : ℕ} (hbase : 2 ≤ base) (hbase' : base ≤ 16)
    (hwidth : 0 < width) (n : ℕ) : IsField (numeral base width n) :=
  ⟨numeral_ne_nil hwidth n, isSpace_numeral hbase hbase'⟩

section

variable {field : Bytes} (h : IsField field)

include h

theorem IsField.notMem {b : UInt8} (hb : isSpace b = true) : b ∉ field := by
  intro hmem
  have hspace := h.2 b hmem
  rw [hb] at hspace
  cases hspace

theorem IsField.isTrail_eq_false : ∀ b ∈ field, isTrail b = false := by
  intro b hb
  have hne {c : UInt8} (hc : isSpace c = true) : b ≠ c := fun heq => h.notMem hc (heq ▸ hb)
  simp [isTrail, isIndent, hne (c := chr '\n') (by decide), hne (c := chr '\r') (by decide),
    hne (c := chr ' ') (by decide), hne (c := chr '\t') (by decide)]

theorem IsField.isIndent_eq_false : ∀ b ∈ field, isIndent b = false := by
  intro b hb
  have htrail := h.isTrail_eq_false b hb
  rw [isTrail, Bool.or_eq_false_iff] at htrail
  exact htrail.2

/-- A file of one line that holds a field. -/
theorem readTextFile_line (fallback : Bytes) :
    readTextFile (some (line field)) fallback = field := by
  have hlines : lines (line field) = [field, []] := by
    have happend := lines_line field []
    rw [List.append_nil, lines_of_notMem (h.notMem (by decide))] at happend
    exact happend
  have htrail : field.rdropWhile isTrail = field := by
    rw [List.rdropWhile_eq_self_iff]
    intro hne
    rw [h.isTrail_eq_false _ (List.getLast_mem hne)]
    exact Bool.false_ne_true
  have hindent : field.dropWhile isIndent = field := by
    obtain ⟨b, rest, rfl⟩ := List.exists_cons_of_ne_nil h.1
    rw [List.dropWhile_cons_of_neg]
    rw [h.isIndent_eq_false b List.mem_cons_self]
    exact Bool.false_ne_true
  simp only [readTextFile, hlines, List.headD_cons, trim, htrail, hindent, if_neg h.1]

theorem splitWhitespace_field : splitWhitespace field = [field] := by
  rw [splitWhitespace, List.splitOnP_eq_singleton h.isIndent_eq_false,
    List.filter_cons_of_pos (by simpa using h.1), List.filter_nil]

end

/-- A file with a number. -/
theorem readUintFile_line (n : UInt64) :
    readUintFile (some (line (numeral 10 1 n.toNat))) = n.toNat := by
  have hfield := @isField_numeral 10 1 (by omega) (by omega) (by omega) n.toNat
  have hread := @stoull_numeral 10 1 n.toNat (by omega) (by omega) (by omega) n.toNat_lt []
    (endsNumber_nil 10)
  rw [List.append_nil] at hread
  rw [readUintFile, readTextFile_line hfield, hread]
  rfl

/-- Fields are separated by any blank. -/
theorem splitWhitespace_append_blank {b : UInt8} (hb : isIndent b = true) (s t : Bytes) :
    splitWhitespace (s ++ b :: t) = splitWhitespace s ++ splitWhitespace t := by
  rw [splitWhitespace, List.splitOnP_append_cons s t hb, List.filter_append]
  rfl

theorem splitWhitespace_replicate (n : ℕ) : splitWhitespace (List.replicate n (chr ' ')) = [] := by
  induction n with
  | zero => rfl
  | succ n ih =>
    have hblank := splitWhitespace_append_blank (b := chr ' ') (by decide) []
      (List.replicate n (chr ' '))
    rw [ih] at hblank
    exact hblank

/-- Blanks after the last field. -/
theorem splitWhitespace_pad (s : Bytes) (n : ℕ) :
    splitWhitespace (s ++ List.replicate n (chr ' ')) = splitWhitespace s := by
  cases n with
  | zero => rw [List.replicate_zero, List.append_nil]
  | succ n =>
    rw [List.replicate_succ, splitWhitespace_append_blank (by decide), splitWhitespace_replicate,
      List.append_nil]

theorem splitWhitespace_intercalate {fields : List Bytes} (h : ∀ field ∈ fields, IsField field) :
    splitWhitespace ([chr '\t'].intercalate fields) = fields := by
  induction fields with
  | nil => rfl
  | cons field fields ih =>
    rw [List.forall_mem_cons] at h
    cases fields with
    | nil => rw [List.intercalate_singleton, splitWhitespace_field h.1]
    | cons next fields =>
      rw [List.intercalate_cons_cons, List.append_assoc, List.singleton_append,
        splitWhitespace_append_blank (by decide), splitWhitespace_field h.1, ih h.2,
        List.singleton_append]

/-! ### Routes -/

/-- An entry of the routing table. The columns that nothing is read from can hold anything. -/
structure Route where
  interface : Bytes
  destination : UInt32
  gateway : UInt32
  flags : UInt32
  refCnt : Bytes
  useCnt : Bytes
  metric : Bytes
  mask : UInt32
  others : List Bytes
  isField : ∀ field ∈ [interface, refCnt, useCnt, metric] ++ others, IsField field

/-- Lines of the table are filled up with blanks. -/
def padded (s : Bytes) : Bytes := s ++ List.replicate (127 - s.length) (chr ' ')

def routeHeader : Bytes :=
  ascii "Iface\tDestination\tGateway \tFlags\tRefCnt\tUse\tMetric\tMask\t\tMTU\tWindow\tIRTT"

namespace Route

variable (route : Route)

def fields : List Bytes :=
  [route.interface, numeral 16 8 route.destination.toNat, numeral 16 8 route.gateway.toNat,
    numeral 16 4 route.flags.toNat, route.refCnt, route.useCnt, route.metric,
    numeral 16 8 route.mask.toNat] ++ route.others

/-- The line as the kernel writes it. -/
def text : Bytes := padded ([chr '\t'].intercalate route.fields)

/-- A route to everywhere that is up. -/
def IsDefault : Prop := route.destination = 0 ∧ route.mask = 0 ∧ route.flags.toNat % 2 = 1

instance : Decidable route.IsDefault := inferInstanceAs (Decidable (_ ∧ _))

theorem isField_fields : ∀ field ∈ route.fields, IsField field := by
  have hrest := route.isField
  have hnumeral {width : ℕ} (hwidth : 0 < width) (n : ℕ) : IsField (numeral 16 width n) :=
    isField_numeral (by omega) (by omega) hwidth n
  simp only [List.forall_mem_append, List.forall_mem_cons] at hrest
  obtain ⟨⟨hinterface, hrefCnt, huseCnt, hmetric, -⟩, hothers⟩ := hrest
  simp only [fields, List.forall_mem_append, List.forall_mem_cons]
  exact ⟨⟨hinterface, hnumeral (by omega) _, hnumeral (by omega) _, hnumeral (by omega) _, hrefCnt,
    huseCnt, hmetric, hnumeral (by omega) _, List.forall_mem_nil _⟩, hothers⟩

theorem splitWhitespace_text : splitWhitespace route.text = route.fields := by
  rw [text, padded, splitWhitespace_pad, splitWhitespace_intercalate route.isField_fields]

theorem numeral_eq_zeros (n : UInt32) : numeral 16 8 n.toNat = ascii "00000000" ↔ n = 0 := by
  have hlt : n.toNat < 2 ^ 64 := Nat.lt_trans n.toNat_lt (by omega)
  have hinj := @numeral_inj 16 8 0 (by omega) (by omega) (by omega) n.toNat hlt (by omega)
  have hzeros : ascii "00000000" = numeral 16 8 0 := by decide
  rw [hzeros, hinj]
  exact UInt32.toNat_inj (b := 0)

/-- A line is read as the interface of a default route. -/
theorem parse_text : parseDefaultRouteInterface route.text =
    if route.IsDefault ∧ route.interface ≠ ascii "Iface" then some route.interface else none := by
  have hinterface := (route.isField_fields route.interface List.mem_cons_self).1
  have hlength : ¬ route.fields.length < 8 := by
    rw [fields, List.length_append]
    simp
  have hflags := @stoull_numeral 16 4 route.flags.toNat (by omega) (by omega) (by omega)
    (by have hlt := route.flags.toNat_lt; omega) [] (endsNumber_nil 16)
  rw [List.append_nil] at hflags
  have hname : route.fields[0]? = some route.interface := rfl
  have hdestination : route.fields[1]? = some (numeral 16 8 route.destination.toNat) := rfl
  have hread : route.fields[3]? = some (numeral 16 4 route.flags.toNat) := rfl
  have hmask : route.fields[7]? = some (numeral 16 8 route.mask.toNat) := rfl
  unfold parseDefaultRouteInterface
  simp only [splitWhitespace_text, hname, hdestination, hread, hmask, Option.some.injEq,
    Option.bind_eq_bind, Option.bind_some, hflags, ne_eq, numeral_eq_zeros, hlength, hinterface,
    false_or]
  unfold IsDefault
  by_cases hiface : route.interface = ascii "Iface"
  · simp [hiface]
  · by_cases hto : route.destination = 0 ∧ route.mask = 0
    · rcases Nat.mod_two_eq_zero_or_one route.flags.toNat with hdown | hup
      · simp [hiface, hto.1, hto.2, hdown]
      · simp [hiface, hto.1, hto.2, hup]
    · rw [if_neg hiface, if_pos (not_and_or.mp hto),
        if_neg fun hdefault => hto ⟨hdefault.1.1, hdefault.1.2.1⟩]

end Route

/-- The table as the kernel writes it. -/
def routeTable (routes : List Route) : Bytes :=
  (padded routeHeader :: routes.map Route.text).flatMap line

theorem newline_notMem_padded {s : Bytes} (h : newline ∉ s) : newline ∉ padded s := by
  rw [padded, List.mem_append, not_or]
  exact ⟨h, fun hmem => absurd (List.eq_of_mem_replicate hmem) (by decide)⟩

theorem newline_notMem_intercalate {fields : List Bytes} (h : ∀ field ∈ fields, IsField field) :
    newline ∉ [chr '\t'].intercalate fields := by
  induction fields with
  | nil => exact List.not_mem_nil
  | cons field fields ih =>
    rw [List.forall_mem_cons] at h
    have hfield : newline ∉ field := h.1.notMem (by decide)
    cases fields with
    | nil => rwa [List.intercalate_singleton]
    | cons next fields =>
      rw [List.intercalate_cons_cons, List.mem_append, List.mem_append, List.mem_singleton]
      exact not_or.mpr ⟨not_or.mpr ⟨hfield, by decide⟩, ih h.2⟩

theorem mem_defaultRouteInterfaces (routes : List Route) (name : Bytes) :
    name ∈ defaultRouteInterfaces (some (routeTable routes)) ↔
      name ≠ ascii "Iface" ∧ ∃ route ∈ routes, route.IsDefault ∧ route.interface = name := by
  have hlines : getLines (routeTable routes) = padded routeHeader :: routes.map Route.text := by
    refine getLines_flatMap_line ?_
    rw [List.forall_mem_cons, List.forall_mem_map]
    exact ⟨newline_notMem_padded (by decide), fun route _ =>
      newline_notMem_padded (newline_notMem_intercalate route.isField_fields)⟩
  have hheader : parseDefaultRouteInterface (padded routeHeader) = none := by decide +kernel
  rw [defaultRouteInterfaces, hlines, List.filterMap_cons_none hheader, List.filterMap_map,
    List.mem_filterMap]
  simp only [Function.comp_apply, Route.parse_text, Option.ite_none_right_eq_some,
    Option.some.injEq]
  constructor
  · rintro ⟨route, hroute, ⟨hdefault, hname⟩, rfl⟩
    exact ⟨hname, route, hroute, hdefault, rfl⟩
  · rintro ⟨hname, route, hroute, hdefault, rfl⟩
    exact ⟨route, hroute, ⟨hdefault, hname⟩, rfl⟩

/-! ### Interfaces -/

/-- An interface. Whether there is a carrier is not known while it is down, and the hardware address
may be empty. -/
structure Interface where
  name : Bytes
  operState : Bytes
  type : ℕ
  mtu : ℕ
  carrier : Option Bool
  address : Bytes
  rxBytes : UInt64
  txBytes : UInt64
  isField : IsField operState
  addressed : address ≠ [] → IsField address

namespace Interface

variable (interface : Interface)

/-- The files of the interface as the kernel writes them. A carrier that is not known cannot be
read. -/
def files : InterfaceFiles where
  operState := some (line interface.operState)
  type := some (line (numeral 10 1 interface.type))
  mtu := some (line (numeral 10 1 interface.mtu))
  carrier := some (interface.carrier.elim [] fun carrier => line (numeral 10 1 carrier.toNat))
  address := some (line interface.address)
  rxBytes := some (line (numeral 10 1 interface.rxBytes.toNat))
  txBytes := some (line (numeral 10 1 interface.txBytes.toNat))

theorem readTextFile_carrier (fallback : Bytes) : readTextFile interface.files.carrier fallback =
    interface.carrier.elim fallback fun carrier => numeral 10 1 carrier.toNat := by
  rw [files]
  cases interface.carrier with
  | none => rfl
  | some carrier =>
    exact readTextFile_line (isField_numeral (by omega) (by omega) (by omega) carrier.toNat)
      fallback

theorem readTextFile_address (fallback : Bytes) : readTextFile interface.files.address fallback =
    if interface.address = [] then fallback else interface.address := by
  rw [files]
  split_ifs with hempty
  · rw [hempty]
    rfl
  · exact readTextFile_line (interface.addressed hempty) fallback

end Interface

/-- What the kernel knows of the network. -/
structure NetworkState where
  interfaces : List Interface
  ifaddrs : List IfAddrs
  routes : List Route
  distinct : (interfaces.map Interface.name).Nodup

namespace NetworkState

variable (state : NetworkState)

def noFiles : InterfaceFiles := ⟨none, none, none, none, none, none, none⟩

/-- What the tool is given to read of it. -/
def readings : NetworkReadings where
  present := true
  names := some (state.interfaces.map Interface.name)
  ifaddrs := some state.ifaddrs
  routes := some (routeTable state.routes)
  files name := ((state.interfaces.find? (·.name = name)).map Interface.files).getD noFiles

/-- The addresses of an interface that are reported. -/
def reported (interface : Interface) (family : Family) : List Bytes :=
  (distinctAddresses (discovered state.ifaddrs interface.name family)).take maxAddressesPerFamily

/-- What there is to report of an interface. -/
def row (interface : Interface) : NetworkInterfaceRow where
  name := interface.name
  operState := interface.operState
  type := numeral 10 1 interface.type
  mtu := numeral 10 1 interface.mtu
  carrier := interface.carrier.elim (ascii "unknown") fun carrier => numeral 10 1 carrier.toNat
  macAddress := if interface.address = [] then ascii "unknown" else interface.address
  ipv4Addresses := state.reported interface .inet
  ipv6Addresses := state.reported interface .inet6
  rxBytes := interface.rxBytes.toNat
  txBytes := interface.txBytes.toNat
  defaultRoute := decide (interface.name ≠ ascii "Iface" ∧
    ∃ route ∈ state.routes, route.IsDefault ∧ route.interface = interface.name)
  source := ascii "sysfs"

theorem find_interface {interfaces : List Interface}
    (hdistinct : (interfaces.map Interface.name).Nodup) {interface : Interface}
    (h : interface ∈ interfaces) :
    interfaces.find? (·.name = interface.name) = some interface := by
  induction interfaces with
  | nil => cases h
  | cons first interfaces ih =>
    rw [List.map_cons, List.nodup_cons] at hdistinct
    rcases List.mem_cons.mp h with rfl | h
    · exact List.find?_cons_of_pos (decide_eq_true rfl)
    · have hne : first.name ≠ interface.name := fun heq =>
        hdistinct.1 (heq ▸ List.mem_map_of_mem h)
      rw [List.find?_cons_of_neg (by simpa using hne), ih hdistinct.2 h]

theorem files_readings {interface : Interface} (h : interface ∈ state.interfaces) :
    state.readings.files interface.name = interface.files := by
  simp only [readings, find_interface state.distinct h]
  rfl

theorem networkRow_readings {interface : Interface} (h : interface ∈ state.interfaces) :
    networkRow state.readings interface.name = state.row interface := by
  have hfiles := state.files_readings h
  have haddresses (family : Family) :
      (networkRow state.readings interface.name).addresses family =
        state.reported interface family :=
    addresses_networkRow state.readings interface.name family
  have hnumeral (n : ℕ) : readTextFile (some (line (numeral 10 1 n))) (ascii "unknown") =
      numeral 10 1 n :=
    readTextFile_line (isField_numeral (by omega) (by omega) (by omega) n) _
  have hroute := mem_defaultRouteInterfaces state.routes interface.name
  have hipv4 := haddresses .inet
  have hipv6 := haddresses .inet6
  simp only [NetworkInterfaceRow.addresses, networkRow] at hipv4 hipv6
  rw [networkRow, row, hipv4, hipv6, hfiles, interface.readTextFile_carrier,
    interface.readTextFile_address]
  simp only [Interface.files, readTextFile_line interface.isField, hnumeral, readUintFile_line,
    readings, hroute]

/-- The interfaces in the order of their names. -/
def ordered : List Interface :=
  state.interfaces.mergeSort fun left right => !decide (right.name < left.name)

theorem ordered_perm : state.ordered.Perm state.interfaces := List.mergeSort_perm _ _

theorem map_name_ordered :
    state.ordered.map Interface.name = sortedNames (state.interfaces.map Interface.name) :=
  List.map_mergeSort fun _ _ _ _ => rfl

theorem ordered_sorted : state.ordered.Pairwise fun left right => left.name < right.name := by
  have hsorted := sortedNames_sorted (state.interfaces.map Interface.name)
  have hdistinct : (state.ordered.map Interface.name).Nodup :=
    ((state.ordered_perm.map Interface.name).nodup_iff).mpr state.distinct
  rw [← map_name_ordered, List.pairwise_map] at hsorted
  rw [List.Nodup, List.pairwise_map] at hdistinct
  refine (hsorted.and hdistinct).imp fun h => ?_
  by_contra hlt
  exact h.2 (Bytes.eq_of_not_lt _ _ hlt h.1)

/-- What the kernel writes of its network is reported as it is, the interfaces in the order of
their names and no more than a hundred. -/
theorem networkSummary_readings :
    state.ordered.Perm state.interfaces ∧
      (state.ordered.Pairwise fun left right => left.name < right.name) ∧
      networkSummaryProvider state.readings =
        { ok := true
          error := []
          rows := (state.ordered.take maxNetworkRows).map state.row
          hasMoreRows := decide (maxNetworkRows < state.interfaces.length) } := by
  refine ⟨state.ordered_perm, state.ordered_sorted, ?_⟩
  have hnames : ((state.interfaces.map Interface.name).mergeSort fun left right =>
      !decide (right < left)) = state.ordered.map Interface.name := state.map_name_ordered.symm
  have hrows : state.ordered.map (networkRow state.readings ∘ Interface.name) =
      state.ordered.map state.row :=
    List.map_congr_left fun interface h =>
      state.networkRow_readings (state.ordered_perm.mem_iff.mp h)
  have hlength := state.ordered_perm.length_eq
  unfold networkSummaryProvider
  simp only [show state.readings.names = some (state.interfaces.map Interface.name) from rfl,
    show state.readings.present = true from rfl, hnames, List.map_map, hrows, collect_eq,
    List.length_map, hlength, List.map_take]
  rfl

/-! ### A host with one uplink -/

def loopback : Interface where
  name := ascii "lo"
  operState := ascii "unknown"
  type := 772
  mtu := 65536
  carrier := some true
  address := ascii "00:00:00:00:00:00"
  rxBytes := 840
  txBytes := 840
  isField := by decide
  addressed := fun _ => by decide

def uplink : Interface where
  name := ascii "eth0"
  operState := ascii "up"
  type := 1
  mtu := 1500
  carrier := some true
  address := ascii "52:54:00:12:34:56"
  rxBytes := 1000000
  txBytes := 20000
  isField := by decide
  addressed := fun _ => by decide

def routeVia (interface : Bytes) (destination gateway flags mask : UInt32)
    (h : IsField interface) : Route where
  interface := interface
  destination := destination
  gateway := gateway
  flags := flags
  refCnt := ascii "0"
  useCnt := ascii "0"
  metric := ascii "100"
  mask := mask
  others := [ascii "0", ascii "0", ascii "0"]
  isField := List.forall_mem_cons.mpr ⟨h, by decide⟩

/-- A loopback interface and one with an address in `10.0.2.0/24`, whose router is `10.0.2.2`. -/
def home : NetworkState where
  interfaces := [uplink, loopback]
  ifaddrs :=
    [⟨some (ascii "lo"), some (.inet, some (ascii "127.0.0.1"))⟩,
      ⟨some (ascii "eth0"), some (.inet, some (ascii "10.0.2.15"))⟩,
      ⟨some (ascii "eth0"), some (.other, none)⟩]
  routes :=
    [routeVia (ascii "eth0") 0 0x0202000A 3 0 (by decide),
      routeVia (ascii "eth0") 0x0002000A 0 1 0x00FFFFFF (by decide)]
  distinct := by decide

theorem networkSummary_readings_home : networkSummaryProvider home.readings =
    { ok := true
      error := []
      rows :=
        [{ name := ascii "eth0"
           operState := ascii "up"
           type := ascii "1"
           mtu := ascii "1500"
           carrier := ascii "1"
           macAddress := ascii "52:54:00:12:34:56"
           ipv4Addresses := [ascii "10.0.2.15"]
           ipv6Addresses := []
           rxBytes := 1000000
           txBytes := 20000
           defaultRoute := true
           source := ascii "sysfs" },
         { name := ascii "lo"
           operState := ascii "unknown"
           type := ascii "772"
           mtu := ascii "65536"
           carrier := ascii "1"
           macAddress := ascii "00:00:00:00:00:00"
           ipv4Addresses := [ascii "127.0.0.1"]
           ipv6Addresses := []
           rxBytes := 840
           txBytes := 840
           defaultRoute := false
           source := ascii "sysfs" }]
      hasMoreRows := false } := by
  have hordered : home.ordered = [uplink, loopback] :=
    List.mergeSort_of_pairwise (List.pairwise_pair.mpr (by decide))
  obtain ⟨-, -, hrows⟩ := home.networkSummary_readings
  have hreported : (home.ordered.take maxNetworkRows).map home.row =
      [home.row uplink, home.row loopback] := by
    rw [hordered]
    rfl
  rw [hreported] at hrows
  exact hrows

end NetworkState

end Kasli.Tools.Network
