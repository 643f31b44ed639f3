import BackupSteward.FileTree
import Mathlib.Tactic.Lemma
import Mathlib.Tactic.SplitIfs

/-!
# Following paths

The way down to a file that was put at some place finds it there, whatever the current directory
is, and the way up from an entry leads back to the directory that holds it.
-/

namespace BackupSteward

namespace FileTree

lemma lookup?_setEntry_self (es : List (String × FileTree)) (name : String) (t : FileTree) :
    lookup? (setEntry es name t) name = some t := by
  induction es with
  | nil => simp [setEntry, lookup?]
  | cons e es ih =>
    obtain ⟨n, old⟩ := e
    rw [setEntry]
    split_ifs with h
    · rw [lookup?, if_pos h]
    · rw [lookup?, if_neg h, ih]

lemma lookup?_filter {es : List (String × FileTree)} {name other : String} (h : other ≠ name) :
    lookup? (es.filter fun e => e.1 ≠ name) other = lookup? es other := by
  induction es with
  | nil => rfl
  | cons e es ih =>
    obtain ⟨n, t⟩ := e
    by_cases hn : n = name
    · rw [List.filter_cons_of_neg (by simpa using hn), ih, lookup?, if_neg (hn ▸ h.symm)]
    · rw [List.filter_cons_of_pos (by simpa using hn), lookup?, lookup?, ih]

namespace Place

/-- The names on a way down: none of them leads up, and none is too long. -/
def LeadsDown (names : List String) : Prop :=
  ∀ name ∈ names, name ≠ ".." ∧ name.utf8ByteSize ≤ maxName

lemma follow_of_lookup? {es : List (String × FileTree)} {name : String} {node : FileTree}
    (hname : name ≠ ".." ∧ name.utf8ByteSize ≤ maxName) (hnode : lookup? es name = some node)
    (above : List Level) : follow ⟨.directory es, above⟩ name =
      .ok ⟨node, ⟨name, es.filter fun e => e.1 ≠ name⟩ :: above⟩ := by
  unfold follow
  dsimp only
  rw [if_neg hname.1, if_neg (Nat.not_lt.2 hname.2), hnode]

/-- The way down to a place where something was put leads to it. -/
lemma exists_foldlM_follow {names : List String} (hnames : LeadsDown names)
    (tree node : FileTree) (above : List Level) :
    ∃ passed, names.foldlM follow ⟨tree.insert names node, above⟩ = .ok ⟨node, passed⟩ := by
  induction names generalizing tree above with
  | nil => exact ⟨above, rfl⟩
  | cons name names ih =>
    obtain ⟨hname, hnames⟩ := List.forall_mem_cons.1 hnames
    rw [insert, List.foldlM_cons, follow_of_lookup? hname (lookup?_setEntry_self ..)]
    exact ih hnames _ _

/-- **A file that was put at some place is read there**, by a relative path if the place lies below
the current directory, and by an absolute path from everywhere. -/
theorem read_insert {place : Place} {path : Path} {tree : FileTree} {content : Text.Bytes}
    (hstart : (place.start path).node = tree.insert path.parts (.file content))
    (hparts : LeadsDown path.parts) (hlength : path.toString.utf8ByteSize ≤ maxPath) :
    place.read path = .ok content := by
  obtain ⟨passed, hpassed⟩ :=
    exists_foldlM_follow hparts tree (.file content) (place.start path).above
  have hfollow : path.parts.foldlM follow (place.start path) = .ok ⟨.file content, passed⟩ := by
    rw [← hpassed, ← hstart]
  unfold read
  rw [if_neg (Nat.not_lt.2 hlength), hfollow]
  rfl

/-- The way up from an entry leads back to a directory with the entries of the one that holds it,
and to the same directories above. -/
theorem follow_up {place below : Place} {name : String} (hname : name ≠ "..")
    (hfollow : place.follow name = .ok below) : below.up.above = place.above ∧
      ∀ other, lookup? below.up.node.entries other = lookup? place.node.entries other := by
  obtain ⟨node, above⟩ := place
  cases node with
  | file content => cases hfollow
  | directory es =>
    unfold follow at hfollow
    dsimp only at hfollow
    rw [if_neg hname] at hfollow
    split_ifs at hfollow
    cases hnode : lookup? es name with
    | none => simp [hnode] at hfollow
    | some node =>
      rw [hnode] at hfollow
      cases hfollow
      refine ⟨rfl, fun other => ?_⟩
      show lookup? ((name, node) :: es.filter _) other = lookup? es other
      rw [lookup?]
      split_ifs with hother
      · rw [← hother, hnode]
      · exact lookup?_filter (Ne.symm hother)

end Place

end FileTree

end BackupSteward
