import Mathlib.Data.List.Perm.Basic
import Kasli.Tools.HardwareProvider
import Kasli.Tools.NetworkAddresses
import Kasli.Tools.Power

/-! The providers that list a directory of the kernel: network interfaces, power supplies and
graphics cards. A directory is listed in no particular order. What the providers report does not
depend on it, and what they leave out comes after what they list. -/

namespace Kasli.Tools

open Core Network Power Hardware

/-- The names of a directory in their order. -/
def sortedNames (names : List Bytes) : List Bytes :=
  names.mergeSort fun left right => !decide (right < left)

theorem sortedNames_perm (names : List Bytes) : (sortedNames names).Perm names :=
  List.mergeSort_perm names _

theorem sortedNames_sorted (names : List Bytes) :
    (sortedNames names).Pairwise fun left right => ¬ right < left := by
  have htrans : ∀ a b c : Bytes, (!decide (b < a)) = true → (!decide (c < b)) = true →
      (!decide (c < a)) = true := by
    intro a b c hab hbc
    simp only [Bool.not_eq_true', decide_eq_false_iff_not, List.not_lt] at hab hbc ⊢
    exact List.le_trans hab hbc
  have htotal : ∀ a b : Bytes, ((!decide (b < a)) || !decide (a < b)) = true := by
    intro a b
    by_cases h : a < b
    · simp [List.lt_asymm h]
    · simp [h]
  exact (List.pairwise_mergeSort htrans htotal names).imp (by simp)

/-- There is one order of the names. -/
theorem eq_sortedNames {ordered names : List Bytes}
    (hsorted : ordered.Pairwise fun left right => ¬ right < left) (hperm : ordered.Perm names) :
    ordered = sortedNames names := by
  refine List.Perm.eq_of_pairwise ?_ hsorted (sortedNames_sorted names)
    (hperm.trans (sortedNames_perm names).symm)
  intro left right _ _ hleft hright
  exact List.le_antisymm hleft hright

theorem sortedNames_eq {names names' : List Bytes} (h : names.Perm names') :
    sortedNames names = sortedNames names' :=
  eq_sortedNames (sortedNames_sorted names) ((sortedNames_perm names).trans h)

theorem cardNames_eq {names names' : List Bytes} (h : names.Perm names') :
    cardNames names = cardNames names' := sortedNames_eq (h.filter _)

/-- What is listed of the names of a directory: the first of them in their order, and whether there
are more. -/
structure FirstNames (limit : ℕ) (names listed : List Bytes) (hasMore : Bool) : Prop where
  sorted : listed.Pairwise fun left right => ¬ right < left
  length : listed.length ≤ limit
  rest : ∃ rest, names.Perm (listed ++ rest) ∧ (∀ name ∈ rest, ∀ other ∈ listed, ¬ name < other) ∧
    (hasMore = true ↔ rest ≠ []) ∧ (rest ≠ [] → listed.length = limit)

theorem firstNames_take (limit : ℕ) (names : List Bytes) :
    FirstNames limit names ((sortedNames names).take limit)
      (decide (limit < (sortedNames names).length)) := by
  have hsorted := sortedNames_sorted names
  have hdrop : (sortedNames names).drop limit ≠ [] ↔ limit < (sortedNames names).length := by
    rw [ne_eq, List.drop_eq_nil_iff]
    omega
  refine ⟨hsorted.sublist (List.take_sublist _ _), ?_, (sortedNames names).drop limit, ?_, ?_, ?_, ?_⟩
  · rw [List.length_take]
    omega
  · rw [List.take_append_drop]
    exact (sortedNames_perm names).symm
  · rw [← List.take_append_drop limit (sortedNames names)] at hsorted
    intro name hname other hother
    exact (List.pairwise_append.mp hsorted).2.2 other hother name hname
  · rw [hdrop, decide_eq_true_eq]
  · rw [hdrop, List.length_take]
    omega

theorem firstNames_collect {R : Type} (limit : ℕ) (names : List Bytes) {row : Bytes → R}
    {nameOf : R → Bytes} (hname : ∀ name, nameOf (row name) = name) :
    FirstNames limit names
      ((collect limit ((sortedNames names).map row)).1.map nameOf)
      (collect limit ((sortedNames names).map row)).2 := by
  have hmap : ((sortedNames names).map row).map nameOf = sortedNames names := by
    rw [List.map_map]
    exact (List.map_congr_left fun name _ => hname name).trans (List.map_id _)
  rw [collect_eq, List.map_take, hmap, List.length_map]
  exact firstNames_take limit names

/-! ### Cards -/

theorem gpuRow_name {devices : Bytes → Option GpuFiles} (names : List Bytes) :
    (names.filterMap (gpuRow devices)).map GpuDeviceRow.name =
      names.filter fun name => (devices name).isSome := by
  induction names with
  | nil => rfl
  | cons name names ih =>
    cases hdevice : devices name with
    | none =>
      have hrow : gpuRow devices name = none := by
        rw [gpuRow, hdevice]
        rfl
      rw [List.filterMap_cons_none hrow, List.filter_cons_of_neg (by simp [hdevice]), ih]
    | some files =>
      obtain ⟨row, hrow, hname⟩ : ∃ row, gpuRow devices name = some row ∧ row.name = name := by
        rw [gpuRow, hdevice]
        exact ⟨_, rfl, rfl⟩
      rw [List.filterMap_cons_some hrow, List.map_cons, hname,
        List.filter_cons_of_pos (by simp [hdevice]), ih]

/-- The names of the cards whose device exists. -/
def presentCards (readings : HardwareReadings) : List Bytes :=
  readings.drmNames.filter fun name => isDrmCardName name && (readings.devices name).isSome

theorem sortedNames_filter (names : List Bytes) (p : Bytes → Bool) :
    (sortedNames names).filter p = sortedNames (names.filter p) :=
  eq_sortedNames ((sortedNames_sorted names).filter p) ((sortedNames_perm names).filter p)

theorem cardRows_name (readings : HardwareReadings) :
    ((cardNames readings.drmNames).filterMap (gpuRow readings.devices)).map GpuDeviceRow.name =
      sortedNames (presentCards readings) := by
  have hcards : cardNames readings.drmNames =
    sortedNames (readings.drmNames.filter isDrmCardName) := rfl
  rw [gpuRow_name, hcards, sortedNames_filter, List.filter_filter, presentCards]
  congr 2
  funext name
  exact Bool.and_comm _ _

theorem firstNames_cards (readings : HardwareReadings) (machine : KernelName) :
    FirstNames maxGpuRows (presentCards readings)
      ((hardwareSummary readings machine).gpuDevices.map GpuDeviceRow.name)
      (hardwareSummary readings machine).hasMoreGpuDevices := by
  have hlength := congrArg List.length (cardRows_name readings)
  rw [List.length_map] at hlength
  simp only [hardwareSummary, collect_eq, List.map_take, cardRows_name, hlength]
  exact firstNames_take _ _

/-! ### The providers -/

/-- The order in which the kernel lists a directory changes nothing of what the three providers
report. Each lists the first names, up to its limit, and says whether there are more. -/
theorem directories_unordered :
    ((∀ (readings : NetworkReadings) (names names' : List Bytes), names.Perm names' →
      networkSummaryProvider { readings with names := some names } =
        networkSummaryProvider { readings with names := some names' }) ∧
    (∀ (readings : PowerReadings) (names names' : List Bytes), names.Perm names' →
      powerStatusProvider { readings with names := some names } =
        powerStatusProvider { readings with names := some names' }) ∧
    ∀ (readings : HardwareReadings) (names names' : List Bytes), names.Perm names' →
      hardwareSummaryProvider { readings with drmNames := names } =
        hardwareSummaryProvider { readings with drmNames := names' }) ∧
    (∀ (readings : NetworkReadings) (names : List Bytes), readings.present = true →
      readings.names = some names → (networkSummaryProvider readings).ok = true ∧
        FirstNames maxNetworkRows names
          ((networkSummaryProvider readings).rows.map NetworkInterfaceRow.name)
          (networkSummaryProvider readings).hasMoreRows) ∧
    (∀ (readings : PowerReadings) (names : List Bytes), readings.present = true →
      readings.names = some names → (powerStatusProvider readings).ok = true ∧
        FirstNames maxPowerRows names
          ((powerStatusProvider readings).rows.map PowerSupplyRow.name)
          (powerStatusProvider readings).hasMoreRows) ∧
    ∀ (readings : HardwareReadings) (machine : KernelName), readings.machine = some machine →
      (hardwareSummaryProvider readings).ok = true ∧
        FirstNames maxGpuRows (presentCards readings)
          ((hardwareSummaryProvider readings).summary.gpuDevices.map GpuDeviceRow.name)
          (hardwareSummaryProvider readings).summary.hasMoreGpuDevices := by
  refine ⟨⟨?_, ?_, ?_⟩, ?_, ?_, ?_⟩
  · intro readings names names' h
    have hsame : (names.mergeSort fun left right => !decide (right < left)) =
      names'.mergeSort fun left right => !decide (right < left) := sortedNames_eq h
    simp only [networkSummaryProvider, hsame]
    rfl
  · intro readings names names' h
    have hsame : (names.mergeSort fun left right => !decide (right < left)) =
      names'.mergeSort fun left right => !decide (right < left) := sortedNames_eq h
    simp only [powerStatusProvider, hsame]
    rfl
  · intro readings names names' h
    have hsame := cardNames_eq h
    simp only [hardwareSummaryProvider, hardwareSummary, hsame]
  · intro readings names hpresent hnames
    simp only [networkSummaryProvider, hpresent, hnames]
    exact ⟨rfl, firstNames_collect _ names fun _ => rfl⟩
  · intro readings names hpresent hnames
    simp only [powerStatusProvider, hpresent, hnames]
    exact ⟨rfl, firstNames_collect _ names fun _ => rfl⟩
  · intro readings machine hmachine
    simp only [hardwareSummaryProvider, hmachine]
    exact ⟨trivial, firstNames_cards readings machine⟩

end Kasli.Tools
