import BackupSteward.Text.Lowered
import Mathlib.Data.List.Infix
import Mathlib.Tactic.Lemma

/-!
# Phrases in joined lines

A phrase is searched for in some lines by searching the text that they make when they are joined.
A phrase that stands on one line itself is found there exactly if it is found on one of the lines:
it cannot reach across the place where two of them meet.
-/

namespace BackupSteward.Text

variable {α : Type} {sep : α} {phrase front back : List α}

/-- What does not contain a separator is on one side of it. -/
lemma infix_append_cons_iff (h : sep ∉ phrase) :
    phrase <:+: front ++ sep :: back ↔ phrase <:+: front ∨ phrase <:+: back := by
  -- of something that begins with the separator only nothing at all is a beginning
  have hnone {part : List α} (hpart : sep ∉ part) (hfront : part <+: sep :: back) : part = [] := by
    rcases List.prefix_cons_iff.1 hfront with hnil | ⟨rest, rfl, -⟩
    · exact hnil
    · exact absurd List.mem_cons_self hpart
  constructor
  · intro hinfix
    rcases List.infix_append_iff.1 hinfix with hfront | hback | ⟨part, rest, rfl, hpart, hrest⟩
    · exact .inl hfront
    · rcases List.infix_cons_iff.1 hback with hbegin | hlater
      · rw [hnone h hbegin]
        exact .inl List.nil_infix
      · exact .inr hlater
    · rw [hnone (fun hmem => h (List.mem_append_right part hmem)) hrest, List.append_nil]
      exact .inl hpart.isInfix
  · rintro (hfront | hback)
    · exact hfront.trans (List.prefix_append front _).isInfix
    · exact hback.trans ((List.suffix_cons sep back).trans (List.suffix_append front _)).isInfix

lemma infix_intercalate_iff (h : sep ∉ phrase) (hne : phrase ≠ []) (parts : List (List α)) :
    phrase <:+: [sep].intercalate parts ↔ ∃ part ∈ parts, phrase <:+: part := by
  induction parts with
  | nil => simp [hne]
  | cons part parts ih =>
    cases parts with
    | nil => simp
    | cons next parts =>
      rw [List.intercalate_cons_cons, List.append_assoc, List.singleton_append,
        infix_append_cons_iff h, ih]
      simp

lemma flatMap_intercalate {β : Type} (f : α → List β) (seps : List α) (parts : List (List α)) :
    (seps.intercalate parts).flatMap f =
      (seps.flatMap f).intercalate (parts.map (·.flatMap f)) := by
  induction parts with
  | nil => simp
  | cons part parts ih =>
    cases parts with
    | nil => simp
    | cons next parts =>
      simp only [List.intercalate_cons_cons, List.map_cons, List.flatMap_append] at ih ⊢
      rw [ih]

/-- A text mentions a phrase if that stands somewhere in it, all letters taken as lower-case
ones. -/
lemma mentions_iff {s phrase : String} :
    mentions s phrase = true ↔ phrase.toList <:+: s.toList.flatMap lowered := by
  rw [mentions, occurs_iff]
  constructor <;> rintro ⟨before, behind, h⟩ <;> exact ⟨before, behind, h.symm⟩

/-- **Joined lines mention a phrase exactly if one of them does.** -/
theorem mentions_joined_iff {phrase : String} (hline : '\n' ∉ phrase.toList)
    (hne : phrase.toList ≠ []) (lines : List String) :
    mentions (String.intercalate "\n" lines) phrase = true ↔
      ∃ line ∈ lines, mentions line phrase = true := by
  have hbreak : "\n".toList.flatMap lowered = ['\n'] := by decide
  rw [mentions_iff, String.toList_intercalate, flatMap_intercalate, hbreak,
    infix_intercalate_iff hline hne]
  simp [mentions_iff]

end BackupSteward.Text
