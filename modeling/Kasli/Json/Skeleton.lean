import Kasli.Json.Parse

/-! What stays of a value when only the contents of its strings change: its skeleton, and with it
the keys of its objects. -/

namespace Kasli.Json

mutual

/-- The value with its strings emptied, the keys apart. -/
def skeleton : Json → Json
  | .string _ => .string []
  | .array js => .array (itemSkeletons js)
  | .object ms => .object (memberSkeletons ms)
  | j => j

def itemSkeletons : List Json → List Json
  | [] => []
  | j :: js => skeleton j :: itemSkeletons js

def memberSkeletons : List (Bytes × Json) → List (Bytes × Json)
  | [] => []
  | (k, j) :: ms => (k, skeleton j) :: memberSkeletons ms

end

mutual

def keys : Json → List Bytes
  | .array js => itemKeys js
  | .object ms => memberKeys ms
  | _ => []

def itemKeys : List Json → List Bytes
  | [] => []
  | j :: js => keys j ++ itemKeys js

def memberKeys : List (Bytes × Json) → List Bytes
  | [] => []
  | (k, j) :: ms => k :: (keys j ++ memberKeys ms)

end

theorem memberSkeletons_eq (ms : List (Bytes × Json)) : memberSkeletons ms = ms.map fun m =>
    (m.1, m.2.skeleton) := by
  induction ms with
  | nil => rfl
  | cons m ms ih => rw [memberSkeletons, ih, List.map_cons]

theorem itemSkeletons_eq (js : List Json) : itemSkeletons js = js.map skeleton := by
  induction js with
  | nil => rfl
  | cons j js ih => rw [itemSkeletons, ih, List.map_cons]

mutual

@[simp] theorem keys_skeleton : ∀ j : Json, j.skeleton.keys = j.keys
  | .null => rfl
  | .bool _ => rfl
  | .number _ => rfl
  | .string _ => rfl
  | .array js => itemKeys_skeletons js
  | .object ms => memberKeys_skeletons ms

theorem itemKeys_skeletons : ∀ js : List Json, itemKeys (itemSkeletons js) = itemKeys js
  | [] => rfl
  | j :: js => by rw [itemSkeletons, itemKeys, itemKeys, keys_skeleton j, itemKeys_skeletons js]

theorem memberKeys_skeletons : ∀ ms :
    List (Bytes × Json), memberKeys (memberSkeletons ms) = memberKeys ms
  | [] => rfl
  | (k, j) :: ms => by rw [memberSkeletons, memberKeys, memberKeys, keys_skeleton j, memberKeys_skeletons ms]

end

mutual

@[simp] theorem written_skeleton : ∀ j : Json, j.skeleton.Written ↔ j.Written
  | .null => Iff.rfl
  | .bool _ => Iff.rfl
  | .number _ => Iff.rfl
  | .string _ => Iff.rfl
  | .array js => writtenItems_skeletons js
  | .object ms => by
    have hkeys : (memberSkeletons ms).Pairwise (fun a b => a.1 < b.1) ↔
        ms.Pairwise fun a b => a.1 < b.1 := by
      rw [memberSkeletons_eq, List.pairwise_map]
    exact and_congr hkeys (writtenMembers_skeletons ms)

theorem writtenItems_skeletons : ∀ js : List Json, WrittenItems (itemSkeletons js) ↔ WrittenItems js
  | [] => Iff.rfl
  | j :: js => and_congr (written_skeleton j) (writtenItems_skeletons js)

theorem writtenMembers_skeletons : ∀ ms : List (Bytes × Json), WrittenMembers (memberSkeletons ms) ↔
    WrittenMembers ms
  | [] => Iff.rfl
  | (_, j) :: ms => and_congr (written_skeleton j) (writtenMembers_skeletons ms)

end

end Kasli.Json
