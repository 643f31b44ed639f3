import BackupSteward.Engine.Framing
import BackupSteward.Proofs.Engine.Transit

/-!
# Lines that arrive in chunks

The bytes of a pipe arrive in chunks that may end anywhere: inside a line, inside a character, or
between the two characters of a line end.  The file follows each line through the pieces in which it
arrives.  A reader that holds more than the limit of a line when a chunk ends forgets what it holds,
and takes the rest of the line for a line of its own.  Lines within the limit are thus read as if
all bytes had come at once; a longer one may leave its rest behind.
-/

namespace BackupSteward.Engine

open BackupSteward.Text (Bytes)

namespace Framing

/-! ### Lines and their pieces -/

/-- Leaves out the last one of some lines if it is empty. -/
def dropEmptyEnd (lines : List Bytes) : List Bytes :=
  if lines.getLast? = some [] then lines.dropLast else lines

/-- The lines of some bytes: what stands between the line feeds, and what stands behind the last one
unless it is empty. -/
def linesIn (bytes : Bytes) : List Bytes := dropEmptyEnd (bytes.splitOn newline)

/-- A line in the pieces in which it arrives. -/
structure Arrival where
  first : Bytes
  later : List Bytes

namespace Arrival

/-- All of a line. -/
def bytes (a : Arrival) : Bytes := a.first ++ a.later.flatten

/-- The same line with more in front of its first piece. -/
def prepend (before : Bytes) (a : Arrival) : Arrival := { a with first := before ++ a.first }

/-- The same line with an empty piece in front of all others. -/
def delay (a : Arrival) : Arrival := ⟨[], a.first :: a.later⟩

/-- What a reader holds of a line at its end: before each piece it forgets what it holds if this is
beyond the limit. -/
def held (limit : Nat) (a : Arrival) : Bytes :=
  a.later.foldl (fun before piece => (if limit < before.length then [] else before) ++ piece)
    a.first

@[simp] lemma bytes_prepend (before : Bytes) (a : Arrival) :
    (a.prepend before).bytes = before ++ a.bytes := List.append_assoc _ _ _

@[simp] lemma prepend_nil (a : Arrival) : a.prepend [] = a := rfl

@[simp] lemma prepend_prepend (before more : Bytes) (a : Arrival) :
    (a.prepend more).prepend before = a.prepend (before ++ more) := by
  simp [prepend]

/-- Before the first piece behind them, bytes beyond the limit are forgotten. -/
lemma held_prepend_delay (limit : Nat) (before : Bytes) (a : Arrival) :
    (a.delay.prepend before).held limit =
      (a.prepend (if limit < before.length then [] else before)).held limit := by
  simp [held, prepend, delay]

/-- Of a line within the limit nothing is forgotten. -/
lemma held_of_le {limit : Nat} {a : Arrival} (h : a.bytes.length ≤ limit) :
    a.held limit = a.bytes := by
  obtain ⟨first, later⟩ := a
  induction later generalizing first with
  | nil => simp [held, bytes]
  | cons piece later ih =>
    have hfirst : ¬ limit < first.length := by
      simp only [bytes, List.length_append] at h
      omega
    have hstep : held limit ⟨first, piece :: later⟩ = held limit ⟨first ++ piece, later⟩ := by
      simp [held, hfirst]
    rw [hstep, ih (first ++ piece) (by simpa [bytes] using h)]
    simp [bytes]

end Arrival

/-- Puts a byte in front of the first line; a line feed begins a new one. -/
def addByte (b : UInt8) (lines : List Arrival) : List Arrival :=
  if b = newline then ⟨[], []⟩ :: lines else lines.modifyHead (.prepend [b])

/-- Puts a chunk in front of what arrives behind it. -/
def addChunk (chunk : Bytes) (lines : List Arrival) : List Arrival :=
  chunk.foldr addByte (lines.modifyHead .delay)

/-- The lines of a stream, each in the pieces in which it arrives.  The end of the stream arrives as
an empty piece. -/
def arrivals (chunks : List Bytes) : List Arrival := chunks.foldr addChunk [⟨[], [[]]⟩]

/-- The texts of those lines that are within a limit. -/
def textsWithin (limit : Nat) (lines : List Bytes) : List String :=
  (lines.filter (·.length ≤ limit)).map lineText

/-- The texts that a reader makes of a stream. -/
def received (limit : Nat) (chunks : List Bytes) : List String :=
  textsWithin limit (dropEmptyEnd ((arrivals chunks).map (·.held limit)))

lemma dropEmptyEnd_singleton (line : Bytes) :
    dropEmptyEnd [line] = if line = [] then [] else [line] := by
  simp [dropEmptyEnd]

lemma dropEmptyEnd_cons (line : Bytes) {lines : List Bytes} (h : lines ≠ []) :
    dropEmptyEnd (line :: lines) = line :: dropEmptyEnd lines := by
  obtain ⟨next, lines, rfl⟩ := List.exists_cons_of_ne_nil h
  rw [dropEmptyEnd, dropEmptyEnd, List.getLast?_cons_cons, List.dropLast_cons_cons]
  split <;> rfl

lemma textsWithin_cons (limit : Nat) (line : Bytes) (lines : List Bytes) :
    textsWithin limit (line :: lines) =
      ((complete limit line).text?).toList ++ textsWithin limit lines := by
  by_cases h : limit < line.length
  · simp [textsWithin, complete, h, Frame.text?]
  · simp [textsWithin, complete, h, Nat.not_lt.1 h, Frame.text?]

lemma addChunk_ne_nil (chunk : Bytes) {lines : List Arrival} (h : lines ≠ []) :
    addChunk chunk lines ≠ [] := by
  unfold addChunk
  induction chunk with
  | nil => simpa using h
  | cons b bytes ih =>
    rw [List.foldr_cons, addByte]
    split
    · exact List.cons_ne_nil _ _
    · simpa using ih

lemma arrivals_ne_nil (chunks : List Bytes) : arrivals chunks ≠ [] := by
  induction chunks with
  | nil => exact List.cons_ne_nil _ _
  | cons chunk chunks ih => exact addChunk_ne_nil chunk ih

lemma bytes_addChunk (chunk : Bytes) (lines : List Arrival) {bytes : Bytes}
    (h : lines.map Arrival.bytes = bytes.splitOn newline) :
    (addChunk chunk lines).map Arrival.bytes = (chunk ++ bytes).splitOn newline := by
  unfold addChunk
  induction chunk with
  | nil =>
    rw [List.nil_append, ← h]
    cases lines <;> rfl
  | cons b chunk ih =>
    rw [List.cons_append, List.splitOn_cons_eq_if_modifyHead, ← ih, List.foldr_cons, addByte]
    by_cases hb : b = newline
    · simp [hb, Arrival.bytes]
    · cases chunk.foldr addByte (lines.modifyHead Arrival.delay) <;> simp [hb]

/-- Bytes without a line feed stand in front of the first line. -/
lemma foldr_addByte_of_notMem {bytes : Bytes} (h : newline ∉ bytes) (lines : List Arrival) :
    bytes.foldr addByte lines = lines.modifyHead (.prepend bytes) := by
  induction bytes with
  | nil => cases lines <;> rfl
  | cons b bytes ih =>
    rw [List.mem_cons, not_or] at h
    rw [List.foldr_cons, ih h.2, addByte, if_neg (Ne.symm h.1)]
    cases lines <;> simp

/-- All of the lines that arrive are the lines of the bytes, wherever the chunks end. -/
lemma bytes_arrivals (chunks : List Bytes) :
    (arrivals chunks).map Arrival.bytes = chunks.flatten.splitOn newline := by
  induction chunks with
  | nil => rfl
  | cons chunk chunks ih => exact bytes_addChunk chunk _ ih

/-! ### Reading -/

/-- What is left behind the last line has no line feed in it and is within the limit. -/
lemma rest_cutFrom (limit : Nat) (line bytes : Bytes) (h : newline ∉ line) :
    newline ∉ (cutFrom limit line bytes).2 ∧ (cutFrom limit line bytes).2.length ≤ limit := by
  induction bytes generalizing line with
  | nil =>
    rw [cutFrom]
    split
    · exact ⟨List.not_mem_nil, Nat.zero_le _⟩
    · exact ⟨by simpa using h, by simp; omega⟩
  | cons b bytes ih =>
    rw [cutFrom]
    split
    · exact ih [] List.not_mem_nil
    case isFalse hb => exact ih (b :: line) (by simp [h, Ne.symm hb])

/-- Bytes without a line feed go to the current line. -/
lemma cutFrom_append (limit : Nat) (line before bytes : Bytes) (h : newline ∉ before) :
    cutFrom limit line (before ++ bytes) = cutFrom limit (before.reverse ++ line) bytes := by
  induction before generalizing line with
  | nil => rfl
  | cons b before ih =>
    rw [List.mem_cons, not_or] at h
    rw [List.cons_append, cutFrom, if_neg (Ne.symm h.1), ih (b :: line) h.2]
    simp

/-- What comes of a chunk, and of its rest in front of what arrives behind it. -/
lemma texts_cutFrom (limit : Nat) (line bytes : Bytes) {lines : List Arrival} (h : lines ≠ []) :
    (cutFrom limit line bytes).1.filterMap Frame.text? ++
        textsWithin limit (dropEmptyEnd ((lines.modifyHead
          (.prepend (cutFrom limit line bytes).2)).map (·.held limit))) =
      textsWithin limit (dropEmptyEnd (((addChunk bytes lines).modifyHead
          (.prepend line.reverse)).map (·.held limit))) := by
  unfold addChunk
  induction bytes generalizing line with
  | nil =>
    obtain ⟨first, lines, rfl⟩ := List.exists_cons_of_ne_nil h
    simp only [cutFrom, List.foldr_nil, List.modifyHead_cons, List.map_cons,
      Arrival.held_prepend_delay, List.length_reverse]
    split <;> simp [Frame.text?]
  | cons b bytes ih =>
    have hrest : bytes.foldr addByte (lines.modifyHead Arrival.delay) ≠ [] :=
      addChunk_ne_nil bytes h
    obtain ⟨next, rest, hnext⟩ := List.exists_cons_of_ne_nil hrest
    rw [cutFrom, List.foldr_cons, addByte]
    by_cases hb : b = newline
    -- the current line is complete, and the next one begins with nothing
    · have hline : (Arrival.prepend line.reverse ⟨[], []⟩).held limit = line.reverse := by
        simp [Arrival.held, Arrival.prepend]
      have hih := ih []
      rw [hnext, List.modifyHead_cons, List.reverse_nil, Arrival.prepend_nil] at hih
      have hmore : (next :: rest).map (·.held limit) ≠ [] := by simp
      rw [if_pos hb, if_pos hb, hnext, List.modifyHead_cons, List.map_cons, hline,
        dropEmptyEnd_cons _ hmore, textsWithin_cons, ← hih]
      cases hcomplete : (complete limit line.reverse).text? <;> simp [hcomplete]
    · rw [if_neg hb, if_neg hb, ih (b :: line), hnext]
      simp

end Framing

namespace LineReader

/-- What comes out of a pipe when some chunks arrive and it ends then. -/
def drain (limit : Nat) : LineReader → List Bytes → List Frame
  | r, [] => r.close.2
  | r, chunk :: chunks => (r.feed limit chunk).2 ++ drain limit (r.feed limit chunk).1 chunks

open Framing

lemma texts_drain_from (limit : Nat) (chunks : List Bytes) {before : Bytes}
    (hbefore : newline ∉ before) (hlimit : before.length ≤ limit) :
    (drain limit ⟨before, true⟩ chunks).filterMap Frame.text? =
      textsWithin limit (dropEmptyEnd (((arrivals chunks).modifyHead
        (.prepend before)).map (·.held limit))) := by
  induction chunks generalizing before with
  | nil =>
    have hheld : (Arrival.prepend before ⟨[], [[]]⟩).held limit = before := by
      simp [Arrival.held, Arrival.prepend, Nat.not_lt.2 hlimit]
    rw [drain, close, if_pos rfl, arrivals, List.foldr_nil, List.modifyHead_cons, List.map_cons,
      hheld, List.map_nil, dropEmptyEnd_singleton]
    cases before with
    | nil => rfl
    | cons b before =>
      rw [if_neg (List.cons_ne_nil _ _), textsWithin_cons, complete, if_neg (Nat.not_lt.2 hlimit)]
      rfl
  | cons chunk chunks ih =>
    have hcut : cut limit (before ++ chunk) = cutFrom limit before.reverse chunk := by
      rw [cut, cutFrom_append limit [] before chunk hbefore, List.append_nil]
    have hfeed : feed limit ⟨before, true⟩ chunk =
        (⟨(cutFrom limit before.reverse chunk).2, true⟩,
          (cutFrom limit before.reverse chunk).1) := by
      rw [feed, if_pos rfl, hcut]
    obtain ⟨hrest, hle⟩ := rest_cutFrom limit before.reverse chunk (by simpa using hbefore)
    rw [drain, hfeed, List.filterMap_append, ih hrest hle,
      texts_cutFrom limit _ chunk (arrivals_ne_nil chunks), List.reverse_reverse]
    rfl

/-- A reader makes of a stream what it holds of each line at its end, if that is within the
limit. -/
lemma texts_drain (limit : Nat) (chunks : List Bytes) :
    (start.drain limit chunks).filterMap Frame.text? = received limit chunks := by
  have hnil : (arrivals chunks).modifyHead (.prepend []) = arrivals chunks := by
    cases arrivals chunks <;> rfl
  rw [start, texts_drain_from limit chunks List.not_mem_nil (Nat.zero_le _), hnil, received]

end LineReader

namespace Framing

/-! ### Lines within the limit and beyond it -/

/-- A line that is just too long. -/
def longLine (limit : Nat) : Bytes := List.replicate (limit + 1) 120

lemma longLine_spec (limit : Nat) :
    limit < (longLine limit).length ∧ newline ∉ longLine limit := by
  constructor
  · rw [longLine, List.length_replicate]
    exact Nat.lt_succ_self limit
  · intro h
    exact absurd (List.eq_of_mem_replicate h) (by decide)

lemma mem_dropEmptyEnd {lines : List Bytes} {line : Bytes} (h : line ∈ lines) (hline : line ≠ []) :
    line ∈ dropEmptyEnd lines := by
  unfold dropEmptyEnd
  split
  case isTrue hend =>
    obtain ⟨front, rfl⟩ := List.getLast?_eq_some_iff.1 hend
    rw [List.dropLast_concat]
    rcases List.mem_append.1 h with h | h
    · exact h
    · exact absurd (List.mem_singleton.1 h) hline
  case isFalse => exact h

/-- **Where the chunks end does not matter as long as every line is within the limit.** -/
lemma received_of_short {limit : Nat} {chunks : List Bytes}
    (h : ∀ line ∈ linesIn chunks.flatten, line.length ≤ limit) :
    received limit chunks = (linesIn chunks.flatten).map lineText := by
  have hheld : (arrivals chunks).map (·.held limit) = chunks.flatten.splitOn newline := by
    rw [← bytes_arrivals]
    refine List.map_congr_left fun a ha => Arrival.held_of_le ?_
    by_cases hempty : a.bytes = []
    · simp [hempty]
    · refine h _ (mem_dropEmptyEnd ?_ hempty)
      rw [← bytes_arrivals]
      exact List.mem_map_of_mem ha
  have hall : (linesIn chunks.flatten).filter (·.length ≤ limit) = linesIn chunks.flatten :=
    List.filter_eq_self.2 fun line hline => by simpa using h line hline
  rw [received, hheld, textsWithin, ← linesIn, hall]

/-- What is held of a line that ends with an empty piece is within the limit. -/
lemma Arrival.held_le {limit : Nat} {a : Arrival} (h : a.later.getLast? = some []) :
    (a.held limit).length ≤ limit := by
  obtain ⟨front, hfront⟩ := List.getLast?_eq_some_iff.1 h
  rw [held, hfront, List.foldl_append, List.foldl_cons, List.foldl_nil, List.append_nil]
  split
  · exact Nat.zero_le _
  · omega

lemma getLast?_later_modifyHead {f : Arrival → Arrival} {lines : List Arrival}
    (hf : ∀ a : Arrival, a.later.getLast? = some [] → (f a).later.getLast? = some [])
    (h : ∀ a ∈ lines.getLast?, a.later.getLast? = some []) :
    ∀ a ∈ (lines.modifyHead f).getLast?, a.later.getLast? = some [] := by
  match lines, h with
  | [], h => exact h
  | [a], h => simpa using hf a (h a rfl)
  | first :: next :: lines, h =>
    rw [List.getLast?_cons_cons] at h
    rwa [List.modifyHead_cons, List.getLast?_cons_cons]

lemma getLast?_later_addChunk (chunk : Bytes) {lines : List Arrival} (hne : lines ≠ [])
    (h : ∀ a ∈ lines.getLast?, a.later.getLast? = some []) :
    ∀ a ∈ (addChunk chunk lines).getLast?, a.later.getLast? = some [] := by
  unfold addChunk
  induction chunk with
  | nil =>
    refine getLast?_later_modifyHead (fun a ha => ?_) h
    rw [Arrival.delay, List.getLast?_cons, ha]
    rfl
  | cons b bytes ih =>
    rw [List.foldr_cons, addByte]
    split
    · obtain ⟨next, rest, hnext⟩ := List.exists_cons_of_ne_nil (addChunk_ne_nil bytes hne)
      rw [addChunk] at hnext
      rw [hnext] at ih ⊢
      rwa [List.getLast?_cons_cons]
    · exact getLast?_later_modifyHead (fun a ha => ha) ih

/-- The last line of a stream ends with an empty piece. -/
lemma getLast?_later_arrivals (chunks : List Bytes) :
    ∀ a ∈ (arrivals chunks).getLast?, a.later.getLast? = some [] := by
  induction chunks with
  | nil =>
    intro a ha
    cases ha
    rfl
  | cons chunk chunks ih => exact getLast?_later_addChunk chunk (arrivals_ne_nil chunks) ih

/-- A stream leaves no rest of a line beyond the limit: what a reader holds of such a line at its
line feed is beyond the limit as well, and at the end of the stream there is nothing. -/
structure LeavesNoRest (limit : Nat) (lines : List Arrival) : Prop where
  ended : ∀ a ∈ lines.dropLast, limit < a.bytes.length → limit < (a.held limit).length
  last : ∀ a ∈ lines.getLast?, limit < a.bytes.length → a.held limit = []

lemma leavesNoRest_singleton {limit : Nat} {a : Arrival} :
    LeavesNoRest limit [a] ↔ (limit < a.bytes.length → a.held limit = []) := by
  constructor
  · exact fun h => h.last a rfl
  · refine fun h => ⟨List.forall_mem_nil _, fun b hb => ?_⟩
    cases hb
    exact h

lemma leavesNoRest_cons {limit : Nat} {a next : Arrival} {lines : List Arrival} :
    LeavesNoRest limit (a :: next :: lines) ↔
      (limit < a.bytes.length → limit < (a.held limit).length) ∧
        LeavesNoRest limit (next :: lines) := by
  constructor
  · rintro ⟨hended, hlast⟩
    rw [List.dropLast_cons_cons, List.forall_mem_cons] at hended
    rw [List.getLast?_cons_cons] at hlast
    exact ⟨hended.1, hended.2, hlast⟩
  · rintro ⟨ha, hended, hlast⟩
    refine ⟨?_, ?_⟩
    · rw [List.dropLast_cons_cons, List.forall_mem_cons]
      exact ⟨ha, hended⟩
    · rwa [List.getLast?_cons_cons]

/-- Of the lines within the limit none is lost, and there are no others exactly if none leaves a
rest. -/
lemma textsWithin_held {limit : Nat} {lines : List Arrival} (hne : lines ≠ [])
    (hlast : ∀ a ∈ lines.getLast?, (a.held limit).length ≤ limit) :
    (textsWithin limit (dropEmptyEnd (lines.map (·.bytes)))).Sublist
        (textsWithin limit (dropEmptyEnd (lines.map (·.held limit)))) ∧
      (textsWithin limit (dropEmptyEnd (lines.map (·.held limit))) =
        textsWithin limit (dropEmptyEnd (lines.map (·.bytes))) ↔ LeavesNoRest limit lines) := by
  induction lines with
  | nil => exact absurd rfl hne
  | cons a lines ih =>
    rcases lines with _ | ⟨next, lines⟩
    · rw [leavesNoRest_singleton]
      by_cases hshort : a.bytes.length ≤ limit
      · have hnot : ¬ limit < a.bytes.length := Nat.not_lt.2 hshort
        simp [Arrival.held_of_le hshort, hnot]
      · have hbytes : a.bytes ≠ [] := fun hnil => hshort (by simp [hnil])
        have hle := hlast a rfl
        by_cases hheld : a.held limit = [] <;>
          simp [dropEmptyEnd_singleton, textsWithin, hbytes, hheld, hshort, hle,
            Nat.not_le.1 hshort]
    · rw [List.getLast?_cons_cons] at hlast
      obtain ⟨hsub, hiff⟩ := ih (List.cons_ne_nil _ _) hlast
      have hcons (f : Arrival → Bytes) :
          textsWithin limit (dropEmptyEnd ((a :: next :: lines).map f)) =
            (complete limit (f a)).text?.toList ++
              textsWithin limit (dropEmptyEnd ((next :: lines).map f)) := by
        rw [List.map_cons, dropEmptyEnd_cons (f a) (by simp), textsWithin_cons]
      rw [leavesNoRest_cons, hcons, hcons, ← hiff]
      by_cases hshort : a.bytes.length ≤ limit
      · have hnot : ¬ limit < a.bytes.length := Nat.not_lt.2 hshort
        rw [Arrival.held_of_le hshort, List.append_cancel_left_eq]
        exact ⟨hsub.append_left _, by simp [hnot]⟩
      have hlong : limit < a.bytes.length := Nat.not_le.1 hshort
      have hnone : (complete limit a.bytes).text? = none := by simp [complete, hlong, Frame.text?]
      rw [hnone, Option.toList_none, List.nil_append]
      by_cases hheld : limit < (a.held limit).length
      · have hnone : (complete limit (a.held limit)).text? = none := by
          simp [complete, hheld, Frame.text?]
        rw [hnone, Option.toList_none, List.nil_append]
        exact ⟨hsub, by simp [hheld]⟩
      -- a rest that is left behind stands in front of texts that are at least as many
      · have hsome : (complete limit (a.held limit)).text? = some (lineText (a.held limit)) := by
          simp [complete, hheld, Frame.text?]
        rw [hsome, Option.toList_some, List.singleton_append]
        refine ⟨hsub.trans (List.sublist_cons_self _ _), iff_of_false (fun heq => ?_) ?_⟩
        · have hle := hsub.length_le
          rw [← heq, List.length_cons] at hle
          omega
        · exact fun h => hheld (h.1 hlong)

/-- **Lines within the limit are read whatever stands beside them, and nothing else is read exactly
if no line beyond the limit leaves a rest.** -/
lemma received_spec (limit : Nat) (chunks : List Bytes) :
    (textsWithin limit (linesIn chunks.flatten)).Sublist (received limit chunks) ∧
      (received limit chunks = textsWithin limit (linesIn chunks.flatten) ↔
        LeavesNoRest limit (arrivals chunks)) := by
  have hlast : ∀ a ∈ (arrivals chunks).getLast?, (a.held limit).length ≤ limit :=
    fun a ha => Arrival.held_le (getLast?_later_arrivals chunks a ha)
  rw [linesIn, ← bytes_arrivals, received]
  exact textsWithin_held (arrivals_ne_nil chunks) hlast

end Framing
end BackupSteward.Engine
