import BackupSteward.Engine.Pipeline
import Mathlib.Tactic.Lemma

/-!
# What is on its way through the queue

The pumps put entries into the queue and the consumer takes them out.  The file says once what such
a step does.  Entries that come from one pipe are in transit while they are in the queue or their
pump has still to make them; a step of a pump leaves what is in transit as it is, and the consumer
takes its front.
-/

namespace BackupSteward.Engine

lemma eq_or_eq_other (p q : Pipe) : q = p ∨ q = p.other := by
  cases p <;> cases q <;> simp [Pipe.other]

/-- The entry that a pump makes of what it has read.  Of a dropped line and of a failure it makes
none. -/
def Frame.entry? (pipe : Pipe) : Frame → Option Entry
  | .line text => some (.line pipe text)
  | .finished => some (.ended pipe)
  | .tooLong | .failed _ => none

/-- The line that was read, if it was one. -/
def Frame.text? : Frame → Option String
  | .line text => some text
  | .tooLong | .failed _ | .finished => none

namespace Entry

/-- The pipe that an entry comes from. -/
def pipe : Entry → Pipe
  | line pipe _ => pipe
  | ended pipe => pipe

/-- The line that an entry holds. -/
def text? : Entry → Option String
  | line _ text => some text
  | ended _ => none

/-- The line that an entry holds, with its pipe. -/
def line? (e : Entry) : Option (Pipe × String) := e.text?.map (e.pipe, ·)

@[simp] lemma pipe_line (pipe : Pipe) (text : String) : (line pipe text).pipe = pipe := rfl

@[simp] lemma pipe_ended (pipe : Pipe) : (ended pipe).pipe = pipe := rfl

@[simp] lemma text?_line (pipe : Pipe) (text : String) : (line pipe text).text? = some text := rfl

@[simp] lemma text?_ended (pipe : Pipe) : (ended pipe).text? = none := rfl

@[simp] lemma line?_line (pipe : Pipe) (text : String) :
    (line pipe text).line? = some (pipe, text) := rfl

@[simp] lemma line?_ended (pipe : Pipe) : (ended pipe).line? = none := rfl

/-- Whether an entry is an end mark. -/
def isEnd : Entry → Bool
  | line _ _ => false
  | ended _ => true

lemma pipe_of_entry? {pipe : Pipe} {frame : Frame} {e : Entry} (h : frame.entry? pipe = some e) :
    e.pipe = pipe := by
  cases frame <;> cases h <;> rfl

end Entry

namespace Pipeline

variable {s t : Pipeline} {pipe : Pipe}

/-- The entries that a pump has still to make. -/
def ahead (s : Pipeline) (pipe : Pipe) : List Entry :=
  (s.pending pipe).filterMap (Frame.entry? pipe)

/-- What the consumer gets, the oldest first, if no other pump goes on. -/
def backlog (s : Pipeline) (pipe : Pipe) : List Entry := s.queue ++ s.ahead pipe

/-- What is in transit from a pipe, the oldest first. -/
def transit (s : Pipeline) (pipe : Pipe) : List Entry := (s.backlog pipe).filter (·.pipe = pipe)

lemma pipe_of_mem_ahead {e : Entry} (h : e ∈ s.ahead pipe) : e.pipe = pipe := by
  obtain ⟨frame, -, hframe⟩ := List.mem_filterMap.1 h
  exact Entry.pipe_of_entry? hframe

lemma transit_eq (s : Pipeline) (pipe : Pipe) :
    s.transit pipe = s.queue.filter (·.pipe = pipe) ++ s.ahead pipe := by
  rw [transit, backlog, List.filter_append]
  congr 1
  exact List.filter_eq_self.2 fun e he => by simpa using pipe_of_mem_ahead he

lemma texts_ahead (s : Pipeline) (pipe : Pipe) :
    (s.ahead pipe).filterMap Entry.text? = (s.pending pipe).filterMap Frame.text? := by
  rw [ahead, List.filterMap_filterMap]
  congr 1
  funext frame
  cases frame <;> rfl

lemma lines_ahead (s : Pipeline) (pipe : Pipe) :
    (s.ahead pipe).filterMap Entry.line? =
      ((s.pending pipe).filterMap Frame.text?).map (pipe, ·) := by
  rw [ahead, List.filterMap_filterMap, List.map_filterMap]
  congr 1
  funext frame
  cases frame <;> rfl

/-! ### Steps of a pump -/

@[simp]
lemma pending_setPending_self (s : Pipeline) (pipe : Pipe) (frames : List Frame) :
    (s.setPending pipe frames).pending pipe = frames := by simp [pending_setPending]

@[simp]
lemma pending_setPending_other (s : Pipeline) (pipe : Pipe) (frames : List Frame) :
    (s.setPending pipe frames).pending pipe.other = s.pending pipe.other := by
  cases pipe <;> rfl

@[simp]
lemma pending_withQueue (s : Pipeline) (queue : List Entry) (pipe : Pipe) :
    ({ s with queue } : Pipeline).pending pipe = s.pending pipe := by
  cases pipe <;> rfl

/-- A pump is done with what it has read first, and puts the entry that it makes of that into the
queue.  It waits while there is no room for the entry. -/
lemma advance?_eq {frame : Frame} {rest : List Frame} (h : s.pending pipe = frame :: rest) :
    (s.advance? pipe).map Prod.fst =
      if (frame.entry? pipe).isSome ∧ queueCapacity ≤ s.queue.length then none
      else some { s.setPending pipe rest with queue := s.queue ++ (frame.entry? pipe).toList } := by
  rw [advance?, h]
  cases frame with
  | tooLong => cases pipe <;> simp [Frame.entry?, setPending]
  | failed error => cases pipe <;> simp [Frame.entry?, setPending]
  | line text =>
    by_cases hroom : s.queue.length < queueCapacity
    · simp [Frame.entry?, enqueue?, hroom]
    · simp [Frame.entry?, enqueue?, hroom, Nat.not_lt.1 hroom]
  | finished =>
    by_cases hroom : s.queue.length < queueCapacity
    · simp [Frame.entry?, enqueue?, hroom]
    · simp [Frame.entry?, enqueue?, hroom, Nat.not_lt.1 hroom]

/-- What a step of a pump does. -/
inductive Pumped (pipe : Pipe) (s t : Pipeline) : Prop
  | intro (frame : Frame) (rest : List Frame) (hpending : s.pending pipe = frame :: rest)
    (hroom : (frame.entry? pipe).isSome → s.queue.length < queueCapacity)
    (hself : t.pending pipe = rest) (hother : t.pending pipe.other = s.pending pipe.other)
    (hqueue : t.queue = s.queue ++ (frame.entry? pipe).toList)

lemma pumped_of_advance? {notices : List Notice} (h : s.advance? pipe = some (t, notices)) :
    Pumped pipe s t := by
  rcases hpending : s.pending pipe with _ | ⟨frame, rest⟩
  · rw [advance?, hpending] at h
    cases h
  have hstep := advance?_eq hpending
  rw [h, Option.map_some] at hstep
  split at hstep
  case isTrue => cases hstep
  case isFalse hroom =>
    cases hstep
    exact .intro frame rest hpending (fun hentry => by simpa [hentry] using hroom)
      (by simp) (by simp) rfl

/-- A pump that does not go on has nothing to do or finds the queue full. -/
lemma pending_of_advance?_eq_none (h : s.advance? pipe = none) :
    s.pending pipe = [] ∨ queueCapacity ≤ s.queue.length := by
  rcases hpending : s.pending pipe with _ | ⟨frame, rest⟩
  · exact .inl rfl
  have hstep := advance?_eq hpending
  rw [h, Option.map_none] at hstep
  split at hstep
  case isTrue hfull => exact .inr hfull.2
  case isFalse => cases hstep

/-- A pump does not touch what the consumer gets, if no other pump goes on. -/
lemma Pumped.backlog_eq (h : Pumped pipe s t) : t.backlog pipe = s.backlog pipe := by
  obtain ⟨frame, rest, hpending, -, hself, -, hqueue⟩ := h
  rw [backlog, backlog, ahead, ahead, hpending, hself, hqueue, List.filterMap_cons]
  cases frame.entry? pipe <;> simp

/-- No pump touches what is in transit. -/
lemma Pumped.transit_eq (h : Pumped pipe s t) (q : Pipe) : t.transit q = s.transit q := by
  rcases eq_or_eq_other pipe q with rfl | hq
  · rw [transit, transit, h.backlog_eq]
  -- the entry that the other pump has added does not count
  obtain ⟨frame, rest, hpending, -, -, hother, hqueue⟩ := h
  have hentry : (frame.entry? pipe).toList.filter (·.pipe = q) = [] := by
    refine List.filter_eq_nil_iff.2 fun e he => ?_
    have := Entry.pipe_of_entry? (Option.mem_toList.1 he)
    rw [this, hq]
    cases pipe <;> decide
  rw [Pipeline.transit_eq, Pipeline.transit_eq, hqueue, List.filter_append, hentry,
    List.append_nil, ahead, ahead, hq, hother]

/-! ### Steps of the consumer -/

/-- What a step of the consumer does. -/
structure Taken (e : Entry) (s t : Pipeline) : Prop where
  queue : s.queue = e :: t.queue
  pending (pipe : Pipe) : t.pending pipe = s.pending pipe

lemma taken_of_take? {e : Entry} (h : s.take? = some (e, t)) : Taken e s t := by
  rcases hqueue : s.queue with _ | ⟨first, rest⟩
  · rw [take?, hqueue] at h
    cases h
  · rw [take?, hqueue] at h
    cases h
    exact ⟨hqueue, fun pipe => by simp⟩

lemma queue_of_take?_eq_none (h : s.take? = none) : s.queue = [] := by
  unfold take? at h
  split at h
  case h_1 hqueue => exact hqueue
  case h_2 => cases h

lemma Taken.backlog_eq {e : Entry} (h : Taken e s t) (pipe : Pipe) :
    s.backlog pipe = e :: t.backlog pipe := by
  rw [backlog, backlog, ahead, ahead, h.queue, h.pending]
  rfl

lemma Taken.transit_eq {e : Entry} (h : Taken e s t) (pipe : Pipe) :
    s.transit pipe = (if e.pipe = pipe then [e] else []) ++ t.transit pipe := by
  rw [transit, h.backlog_eq, List.filter_cons]
  by_cases he : e.pipe = pipe <;> simp [he, transit]

/-! ### Going on as far as possible -/

/-- Steps of a pump change nothing but where its entries are. -/
structure Carried (pipe : Pipe) (s t : Pipeline) : Prop where
  backlog : t.backlog pipe = s.backlog pipe
  other : t.pending pipe.other = s.pending pipe.other
  load : t.queue.length + (t.pending pipe).length ≤ s.queue.length + (s.pending pipe).length

lemma Carried.refl (pipe : Pipe) (s : Pipeline) : Carried pipe s s := ⟨rfl, rfl, Nat.le_refl _⟩

lemma Carried.trans {u : Pipeline} (h : Carried pipe s t) (h' : Carried pipe t u) :
    Carried pipe s u :=
  ⟨h'.backlog.trans h.backlog, h'.other.trans h.other, Nat.le_trans h'.load h.load⟩

lemma Pumped.carried (h : Pumped pipe s t) : Carried pipe s t := by
  have hbacklog := h.backlog_eq
  obtain ⟨frame, rest, hpending, -, hself, hother, hqueue⟩ := h
  refine ⟨hbacklog, hother, ?_⟩
  have hone : (frame.entry? pipe).toList.length ≤ 1 := by cases frame.entry? pipe <;> simp
  rw [hpending, hself, hqueue, List.length_append, List.length_cons]
  omega

lemma carried_advanceMany (frames : List Frame) (s : Pipeline) :
    Carried pipe s (s.advanceMany pipe frames).1 := by
  induction frames generalizing s with
  | nil => exact .refl pipe s
  | cons frame frames ih =>
    rw [advanceMany]
    cases hstep : s.advance? pipe with
    | none => exact .refl pipe s
    | some step => exact (pumped_of_advance? hstep).carried.trans (ih step.1)

/-- Each step is done with something that has been read, so that there are no more steps than
that. -/
lemma advance?_advanceMany (frames : List Frame) (s : Pipeline)
    (h : (s.pending pipe).length ≤ frames.length) :
    (s.advanceMany pipe frames).1.advance? pipe = none := by
  induction frames generalizing s with
  | nil =>
    have hpending : s.pending pipe = [] := List.eq_nil_of_length_eq_zero (by simpa using h)
    rw [advanceMany, advance?, hpending]
  | cons frame frames ih =>
    rw [advanceMany]
    cases hstep : s.advance? pipe with
    | none => exact hstep
    | some step =>
      obtain ⟨_, _, hpending, -, hself, -, -⟩ := pumped_of_advance? hstep
      refine ih step.1 ?_
      rw [hpending, List.length_cons] at h
      rw [hself]
      exact Nat.le_of_succ_le_succ h

lemma carried_fill (s : Pipeline) (pipe : Pipe) : Carried pipe s (s.fill pipe).1 :=
  carried_advanceMany _ s

/-- A pump goes on until it has nothing to do or the queue is full. -/
lemma pending_fill (s : Pipeline) (pipe : Pipe) :
    (s.fill pipe).1.pending pipe = [] ∨ queueCapacity ≤ (s.fill pipe).1.queue.length :=
  pending_of_advance?_eq_none (advance?_advanceMany _ s (Nat.le_refl _))

end Pipeline
end BackupSteward.Engine
