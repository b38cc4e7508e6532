import Kasli.Data.OrderedMap
import Kasli.Text.Readings
import Kasli.Tools.CountedRows
import Kasli.Tools.Network

/-! Where the network summary tool gets its rows from (`default_network_summary_provider` of
`tools/network_tool.cpp`). What the system says of its interfaces is a parameter. At most eight
addresses of an interface are kept while they are collected, so the mark of a longer list, which
is written when more than eight were kept, is never written. -/

namespace Kasli.Tools.Network

def maxNetworkRows : ℕ := 100

/-! ### Addresses -/

inductive Family where
  | inet | inet6 | other
  deriving DecidableEq

/-- What `getifaddrs` says of an address, with the text that `getnameinfo` makes of it. -/
structure IfAddrs where
  name : Option Bytes
  addr : Option (Family × Option Bytes)

structure InterfaceAddresses where
  ipv4 : List Bytes
  ipv6 : List Bytes

def InterfaceAddresses.none : InterfaceAddresses := ⟨[], []⟩

def addBoundedUnique (values : List Bytes) (value : Bytes) : List Bytes :=
  if value = [] ∨ values.length ≥ maxAddressesPerFamily then values
  else if value ∈ values then values
  else values ++ [value]

def InterfaceAddresses.add (addresses : InterfaceAddresses) (host : Bytes) :
    Family → InterfaceAddresses
  | .inet => { addresses with ipv4 := addBoundedUnique addresses.ipv4 host }
  | .inet6 => { addresses with ipv6 := addBoundedUnique addresses.ipv6 host }
  | .other => addresses

/-- The interface, the family and the text of an address that is collected. -/
def IfAddrs.host? (entry : IfAddrs) : Option (Bytes × Family × Bytes) := do
  let name ← entry.name
  let (family, host) ← entry.addr
  if family = .other then none else return (name, family, ← host)

/-- What is known of an interface. -/
def interfaceAddresses (addresses : OrderedMap Bytes InterfaceAddresses) (name : Bytes) :
    InterfaceAddresses :=
  (addresses.find? name).getD .none

def addAddress (addresses : OrderedMap Bytes InterfaceAddresses) (entry : IfAddrs) :
    OrderedMap Bytes InterfaceAddresses :=
  match entry.host? with
  | none => addresses
  | some (name, family, host) =>
    addresses.assign name ((interfaceAddresses addresses name).add host family)

/-- `collect_interface_addresses`, given what `getifaddrs` makes when it does not fail. -/
def collectInterfaceAddresses (entries : Option (List IfAddrs)) :
    OrderedMap Bytes InterfaceAddresses :=
  (entries.getD []).foldl addAddress .empty

/-! ### Routes -/

/-- `split_whitespace` -/
def splitWhitespace (value : Bytes) : List Bytes := (value.splitOnP isIndent).filter (· ≠ [])

/-- The interface of a default route that is up. -/
def parseDefaultRouteInterface (line : Bytes) : Option Bytes := do
  let fields := splitWhitespace line
  if fields.length < 8 ∨ fields[0]? = some (ascii "Iface") then none
  else if fields[0]? = some [] ∨ fields[1]? ≠ some (ascii "00000000") ∨
      fields[7]? ≠ some (ascii "00000000") then none
  else
    let flags ← stoull 16 (← fields[3]?)
    if flags % 2 = 0 then none else fields[0]?

/-- The members of `collect_default_route_interfaces`. -/
def defaultRouteInterfaces (routes : Option Bytes) : List Bytes :=
  match routes with
  | none => []
  | some text => (getLines text).filterMap parseDefaultRouteInterface

/-! ### Rows -/

/-- The files of an interface that are read. -/
structure InterfaceFiles where
  operState : Option Bytes
  type : Option Bytes
  mtu : Option Bytes
  carrier : Option Bytes
  address : Option Bytes
  rxBytes : Option Bytes
  txBytes : Option Bytes

def readUintFile (text : Option Bytes) : ℕ := (stoull 10 (readTextFile text (ascii "0"))).getD 0

/-- What the system says. The directory of the interfaces may not exist, and may not be readable
to its end. -/
structure NetworkReadings where
  present : Bool
  names : Option (List Bytes)
  ifaddrs : Option (List IfAddrs)
  routes : Option Bytes
  files : Bytes → InterfaceFiles

def networkRow (readings : NetworkReadings) (name : Bytes) : NetworkInterfaceRow :=
  let files := readings.files name
  let addresses := interfaceAddresses (collectInterfaceAddresses readings.ifaddrs) name
  { name
    operState := readTextFile files.operState (ascii "unknown")
    type := readTextFile files.type (ascii "unknown")
    mtu := readTextFile files.mtu (ascii "unknown")
    carrier := readTextFile files.carrier (ascii "unknown")
    macAddress := readTextFile files.address (ascii "unknown")
    ipv4Addresses := addresses.ipv4
    ipv6Addresses := addresses.ipv6
    rxBytes := readUintFile files.rxBytes
    txBytes := readUintFile files.txBytes
    defaultRoute := decide (name ∈ defaultRouteInterfaces readings.routes)
    source := ascii "sysfs" }

/-- `default_network_summary_provider` -/
def networkSummaryProvider (readings : NetworkReadings) : NetworkSummaryResult :=
  let unavailable : NetworkSummaryResult :=
    { ok := false, error := ascii "network interfaces are not available", rows := [],
      hasMoreRows := false }
  if !readings.present then unavailable
  else
    match readings.names with
    | none => unavailable
    | some names =>
      let sorted := names.mergeSort fun left right => !decide (right < left)
      let (rows, hasMoreRows) := collect maxNetworkRows (sorted.map (networkRow readings))
      { ok := true, error := [], rows, hasMoreRows }

/-! ### What is collected -/

/-- The addresses of an interface in one family, in the order they are found. -/
def discovered (entries : List IfAddrs) (name : Bytes) (family : Family) : List Bytes :=
  (entries.filterMap IfAddrs.host?).filterMap fun found =>
    if found.1 = name ∧ found.2.1 = family then some found.2.2 else none

/-- The addresses without repetitions. -/
def distinctAddresses (found : List Bytes) : List Bytes := (found.filter (· ≠ [])).eraseDups

def InterfaceAddresses.ofFamily (addresses : InterfaceAddresses) : Family → List Bytes
  | .inet => addresses.ipv4
  | .inet6 => addresses.ipv6
  | .other => []

theorem eraseDups_concat (l : List Bytes) (a : Bytes) :
    (l ++ [a]).eraseDups = l.eraseDups ++ if a ∈ l then [] else [a] := by
  rw [List.eraseDups_append, List.cons_removeAll]
  by_cases h : a ∈ l
  · simp [h, List.removeAll]
  · simp [h, List.removeAll, List.eraseDups_cons]

theorem distinctAddresses_concat (found : List Bytes) (host : Bytes) :
    distinctAddresses (found ++ [host]) = distinctAddresses found ++
      if host = [] ∨ host ∈ distinctAddresses found then [] else [host] := by
  have hmem : host ∈ distinctAddresses found ↔ host ∈ found.filter (· ≠ []) := List.mem_eraseDups
  simp only [hmem]
  rw [distinctAddresses, List.filter_append]
  by_cases hempty : host = []
  · rw [if_pos (.inl hempty), List.filter_cons_of_neg (by simpa using hempty), List.filter_nil,
      List.append_nil, List.append_nil]
    rfl
  · rw [List.filter_cons_of_pos (by simpa using hempty), List.filter_nil, eraseDups_concat]
    simp only [hempty, false_or]
    rfl

/-- One after another, the first eight distinct addresses are kept. -/
theorem foldl_addBoundedUnique (found : List Bytes) :
    found.foldl addBoundedUnique [] = (distinctAddresses found).take maxAddressesPerFamily := by
  induction found using List.reverseRecOn with
  | nil => rfl
  | append_singleton found host ih =>
    rw [List.foldl_concat, ih, distinctAddresses_concat, addBoundedUnique, List.length_take]
    rcases Nat.lt_or_ge (distinctAddresses found).length maxAddressesPerFamily with hroom | hfull
    · rw [List.take_of_length_le (by omega)]
      by_cases hempty : host = []
      · rw [if_pos (.inl hempty), if_pos (.inl hempty), List.append_nil,
          List.take_of_length_le (by omega)]
      · by_cases hknown : host ∈ distinctAddresses found
        · rw [if_neg (by simp only [hempty, false_or]; omega), if_pos hknown,
            if_pos (.inr hknown), List.append_nil, List.take_of_length_le (by omega)]
        · rw [if_neg (by simp only [hempty, false_or]; omega), if_neg hknown,
            if_neg (by simp only [hempty, hknown, or_self, not_false_eq_true]),
            List.take_of_length_le (by rw [List.length_append, List.length_singleton]; omega)]
    · rw [if_pos (.inr (by omega)), List.take_append_of_le_length hfull]

theorem ofFamily_add (addresses : InterfaceAddresses) (host : Bytes) {family : Family}
    (h : family ≠ .other) (family' : Family) :
    (addresses.add host family).ofFamily family' =
      if family = family' then addBoundedUnique (addresses.ofFamily family') host
      else addresses.ofFamily family' := by
  cases family with
  | inet => cases family' <;> rfl
  | inet6 => cases family' <;> rfl
  | other => exact absurd rfl h

theorem IfAddrs.host?_ne_other {entry : IfAddrs} {name host : Bytes} {family : Family}
    (h : entry.host? = some (name, family, host)) : family ≠ .other := by
  simp only [IfAddrs.host?, Option.bind_eq_bind] at h
  obtain ⟨_, -, h⟩ := Option.bind_eq_some_iff.mp h
  obtain ⟨⟨_, _⟩, -, h⟩ := Option.bind_eq_some_iff.mp h
  split_ifs at h with hother
  obtain ⟨_, -, h⟩ := Option.bind_eq_some_iff.mp h
  obtain ⟨-, rfl, -⟩ := Prod.mk.injEq .. ▸ Option.some.inj h
  exact hother

/-- What is kept of an interface is what is kept of its own addresses. -/
theorem ofFamily_collect (entries : List IfAddrs) (name : Bytes) (family : Family) :
    (interfaceAddresses (entries.foldl addAddress .empty) name).ofFamily family =
      (distinctAddresses (discovered entries name family)).take maxAddressesPerFamily := by
  rw [← foldl_addBoundedUnique]
  induction entries using List.reverseRecOn with
  | nil => cases family <;> rfl
  | append_singleton entries entry ih =>
    rw [List.foldl_concat, addAddress, discovered, List.filterMap_append]
    cases hhost : entry.host? with
    | none =>
      rw [ih]
      simp [hhost, discovered]
    | some found =>
      obtain ⟨name', family', host⟩ := found
      have hadd := ofFamily_add (interfaceAddresses (entries.foldl addAddress .empty) name') host
        (IfAddrs.host?_ne_other hhost) family
      by_cases hname : name = name'
      · subst hname
        have hget : interfaceAddresses ((entries.foldl addAddress .empty).assign name
            ((interfaceAddresses (entries.foldl addAddress .empty) name).add host family')) name =
            (interfaceAddresses (entries.foldl addAddress .empty) name).add host family' := by
          rw [interfaceAddresses, OrderedMap.find?_assign, if_pos rfl, Option.getD_some]
        simp only [hget, hadd, ih]
        by_cases hfamily : family' = family
        · simp [hhost, hfamily, discovered, List.foldl_append]
        · simp [hhost, hfamily, discovered]
      · have hget : interfaceAddresses ((entries.foldl addAddress .empty).assign name'
            ((interfaceAddresses (entries.foldl addAddress .empty) name').add host family')) name =
            interfaceAddresses (entries.foldl addAddress .empty) name := by
          rw [interfaceAddresses, OrderedMap.find?_assign, if_neg hname, interfaceAddresses]
        simp only [hget, ih]
        simp [hhost, Ne.symm hname, discovered]

/-! ### What is listed -/

/-- The text lists the first eight distinct addresses, and says so when there are more. -/
def ListsAddresses (found : List Bytes) (text : Bytes) : Prop :=
  text = if distinctAddresses found = [] then ascii "none"
    else [chr ','].intercalate ((distinctAddresses found).take maxAddressesPerFamily ++
      if (distinctAddresses found).length > maxAddressesPerFamily then [ascii "truncated"] else [])

instance (found : List Bytes) (text : Bytes) : Decidable (ListsAddresses found text) :=
  inferInstanceAs (Decidable (_ = _))

/-- The addresses of a row. -/
def NetworkInterfaceRow.addresses (row : NetworkInterfaceRow) : Family → List Bytes
  | .inet => row.ipv4Addresses
  | .inet6 => row.ipv6Addresses
  | .other => []

theorem length_intercalate_concat (l : List Bytes) (s : Bytes) :
    ([chr ','].intercalate l).length + s.length ≤ ([chr ','].intercalate (l ++ [s])).length := by
  induction l with
  | nil => simp
  | cons t l ih =>
    cases l with
    | nil => simp [List.intercalate_cons_cons]
    | cons u l =>
      rw [List.cons_append, List.cons_append, List.intercalate_cons_cons,
        List.intercalate_cons_cons, ← List.cons_append]
      simp only [List.length_append] at ih ⊢
      omega

/-- A list that was cut before it is formatted has no mark. -/
theorem formatNetworkAddressList_take_iff (distinct : List Bytes) :
    formatNetworkAddressList (distinct.take maxAddressesPerFamily) =
        (if distinct = [] then ascii "none"
        else [chr ','].intercalate (distinct.take maxAddressesPerFamily ++
          if distinct.length > maxAddressesPerFamily then [ascii "truncated"] else [])) ↔
      distinct.length ≤ maxAddressesPerFamily := by
  have hnil : distinct.take maxAddressesPerFamily = [] ↔ distinct = [] := by
    simp [List.take_eq_nil_iff, maxAddressesPerFamily]
  have hshort : ¬ (distinct.take maxAddressesPerFamily).length > maxAddressesPerFamily := by
    rw [List.length_take]
    omega
  have htwice : (distinct.take maxAddressesPerFamily).take maxAddressesPerFamily =
      distinct.take maxAddressesPerFamily := by rw [List.take_take, Nat.min_self]
  rw [formatNetworkAddressList, htwice, if_neg hshort, List.append_nil]
  by_cases hempty : distinct = []
  · subst hempty
    simp
  · rw [if_neg (mt hnil.mp hempty), if_neg hempty]
    by_cases hlong : distinct.length > maxAddressesPerFamily
    · rw [if_pos hlong]
      refine iff_of_false (fun heq => ?_) (by omega)
      have hlength := length_intercalate_concat (distinct.take maxAddressesPerFamily)
        (ascii "truncated")
      rw [← heq] at hlength
      exact absurd hlength (by rw [show (ascii "truncated").length = 9 by decide]; omega)
    · rw [if_neg hlong, List.append_nil]
      exact iff_of_true rfl (by omega)

section

variable (readings : NetworkReadings) (name : Bytes) (family : Family)

theorem addresses_networkRow : (networkRow readings name).addresses family =
    (distinctAddresses (discovered (readings.ifaddrs.getD []) name family)).take
      maxAddressesPerFamily := by
  rw [← ofFamily_collect]
  cases family <;> rfl

/-- The addresses of an interface are listed as they are to be exactly when there are no more than
eight: the mark of a longer list is never written. -/
theorem listsAddresses_iff :
    ListsAddresses (discovered (readings.ifaddrs.getD []) name family)
        (formatNetworkAddressList ((networkRow readings name).addresses family)) ↔
      (distinctAddresses (discovered (readings.ifaddrs.getD []) name family)).length ≤
        maxAddressesPerFamily := by
  rw [addresses_networkRow, ListsAddresses, formatNetworkAddressList_take_iff]

end

/-- An interface with nine addresses. -/
def nineAddresses : NetworkReadings where
  present := true
  names := some [ascii "eth0"]
  ifaddrs := some ((List.range 9).map fun n =>
    ⟨some (ascii "eth0"), some (.inet, some (ascii "10.0.0." ++ decimal n))⟩)
  routes := none
  files _ := ⟨none, none, none, none, none, none, none⟩

/-- The ninth address is not listed, and nothing says so. -/
theorem ninth_address_left_out : ¬ ∀ (readings : NetworkReadings) (name : Bytes) (family : Family),
    ListsAddresses (discovered (readings.ifaddrs.getD []) name family)
      (formatNetworkAddressList ((networkRow readings name).addresses family)) := by
  intro h
  exact absurd (h nineAddresses (ascii "eth0") .inet) (by decide +kernel)

end Kasli.Tools.Network
