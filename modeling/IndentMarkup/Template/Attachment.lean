/-!
# The order of attachments

A block is a flat list of entries with depths. `attachments` says in which order its entries are attached
and to which parent: of the entries that are still pending the last one at the greatest depth comes first,
and its parent is the nearest pending entry in front of it that is one level shallower, or the root of the
block. Once the greatest depth is one, all that is left hangs under the root, and the last entry comes
first whatever its depth.
-/

namespace IndentMarkup

structure Pending where
  index : Nat
  depth : Int
  deriving DecidableEq, Repr

/-- The last item of a list that passes a test, with the items in front of it and behind it. -/
def splitAtLast? {α : Type} (p : α → Bool) : List α → Option (List α × α × List α)
  | [] => none
  | x :: rest =>
    match splitAtLast? p rest with
    | some (before, y, behind) => some (x :: before, y, behind)
    | none => if p x then some ([], x, rest) else none

theorem length_of_splitAtLast? {α : Type} {p : α → Bool} {l before behind : List α} {x : α}
    (h : splitAtLast? p l = some (before, x, behind)) :
    l.length = (before ++ behind).length + 1 := by
  induction l generalizing before x behind with
  | nil => simp [splitAtLast?] at h
  | cons y rest ih =>
    rw [splitAtLast?] at h
    split at h
    · next hs =>
      obtain ⟨rfl, rfl, rfl⟩ : _ ∧ _ ∧ _ := by simpa using h
      simp [ih hs]
    · split at h
      · obtain ⟨rfl, rfl, rfl⟩ : _ ∧ _ ∧ _ := by simpa using h
        simp
      · simp at h

def maxDepth : List Pending → Option Int
  | [] => none
  | e :: rest => some ((maxDepth rest).elim e.depth (max e.depth))

def isNext (greatest : Option Int) (e : Pending) : Bool := greatest = some 1 || greatest = some e.depth

def attachmentsOf (pending : List Pending) : List (Nat × Option Nat) :=
  match _found : splitAtLast? (isNext (maxDepth pending)) pending with
  | none => []
  | some (before, e, behind) =>
    let parent := (splitAtLast? (fun p => p.depth == e.depth - 1) before).map fun (_, p, _) => p.index
    (e.index, parent) :: attachmentsOf (before ++ behind)
termination_by pending.length
decreasing_by rw [length_of_splitAtLast? _found]; exact Nat.lt_succ_self _

def pendingFrom : Nat → List Int → List Pending
  | _, [] => []
  | index, depth :: rest => ⟨index, depth⟩ :: pendingFrom (index + 1) rest

def attachments (depths : List Int) : List (Nat × Option Nat) := attachmentsOf (pendingFrom 0 depths)

/-- The parent of every entry of a block; `none` stands for the root. -/
def parentLinks (depths : List Int) : List (Option Nat) :=
  (attachments depths).foldl (fun links (child, parent) => links.set child parent)
    (List.replicate depths.length none)

end IndentMarkup
