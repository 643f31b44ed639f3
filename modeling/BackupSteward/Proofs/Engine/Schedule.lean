import BackupSteward.Engine.Session
import BackupSteward.Proofs.Engine.Transit
import Mathlib.Logic.Relation
import Mathlib.Tactic.ByContra

/-!
# Schedules

While a process runs there are three tasks: two pumps and the consumer behind the queue.  Nothing
fixes the order of their steps.  The file lets them go on in any order and shows that it does not
matter: the queue keeps its bound, nothing is lost or swapped on the way from a pipe to the handler,
and the tasks can always go on until the consumer has seen both end marks.
-/

namespace BackupSteward.Engine

/-- The two pumps, the queue, and the consumer. -/
structure Tasks (σ : Type) where
  pipeline : Pipeline
  /-- How many end marks the consumer waits for. -/
  awaited : Nat
  /-- The lines given to the handler, the oldest first. -/
  handed : List (Pipe × String)
  /-- The state of the handler. -/
  state : σ

namespace Tasks

variable {σ : Type}

/-- What the pump of a pipe with some lines has to do. -/
def whole (lines : List String) : List Frame := lines.map .line ++ [.finished]

/-- Each pump holds the lines of its pipe, and the consumer waits. -/
def start (lines : Pipe → List String) (state : σ) : Tasks σ where
  pipeline := ⟨whole (lines .stdout), whole (lines .stderr), []⟩
  awaited := 2
  handed := []
  state

/-- A step of one of the tasks.  The consumer takes nothing more when it has seen all end marks. -/
inductive Step (handler : Handler σ) (s : Tasks σ) : Tasks σ → Prop
  | pump (pipe : Pipe) {pipeline : Pipeline} {notices : List Notice}
    (hstep : s.pipeline.advance? pipe = some (pipeline, notices)) :
    Step handler s { s with pipeline }
  | deliver {pipe : Pipe} {text : String} {pipeline : Pipeline} (hawaits : s.awaited ≠ 0)
    (htake : s.pipeline.take? = some (.line pipe text, pipeline))
    (hhandled : (handler pipe text s.state).failure = none) :
    Step handler s { s with pipeline, handed := s.handed ++ [(pipe, text)],
                            state := (handler pipe text s.state).state }
  | markEnd {pipe : Pipe} {pipeline : Pipeline} (hawaits : s.awaited ≠ 0)
    (htake : s.pipeline.take? = some (.ended pipe, pipeline)) :
    Step handler s { s with pipeline, awaited := s.awaited - 1 }

/-- Some steps of the tasks, in any order. -/
abbrev Steps (handler : Handler σ) : Tasks σ → Tasks σ → Prop :=
  Relation.ReflTransGen (Step handler)

/-! ### What every schedule keeps -/

/-- All that comes from a pipe with some lines. -/
def entries (lines : Pipe → List String) (pipe : Pipe) : List Entry :=
  (lines pipe).map (.line pipe) ++ [.ended pipe]

/-- Nothing is lost on the way from the pipes to the consumer, which has taken some entries. -/
structure Sound (handler : Handler σ) (lines : Pipe → List String) (state : σ) (taken : List Entry)
    (s : Tasks σ) : Prop where
  bounded : s.pipeline.queue.length ≤ queueCapacity
  /-- Every pump has still to make an entry of all it holds. -/
  entry (pipe : Pipe) (frame : Frame) : frame ∈ s.pipeline.pending pipe →
    (frame.entry? pipe).isSome
  /-- What was taken and what is in transit is all there is, in its order. -/
  complete (pipe : Pipe) :
    taken.filter (·.pipe = pipe) ++ s.pipeline.transit pipe = entries lines pipe
  awaited : s.awaited + taken.countP Entry.isEnd = 2
  handed : s.handed = taken.filterMap Entry.line?
  state : s.state = s.handed.foldl (fun state line => (handler line.1 line.2 state).state) state

lemma ahead_whole (pipe : Pipe) (lines : List String) :
    (whole lines).filterMap (Frame.entry? pipe) = lines.map (.line pipe) ++ [.ended pipe] := by
  simp [whole, Frame.entry?, List.filterMap_append, List.filterMap_map, Function.comp_def]

lemma sound_start (handler : Handler σ) (lines : Pipe → List String) (state : σ) :
    Sound handler lines state [] (start lines state) where
  bounded := Nat.zero_le _
  entry pipe frame h := by
    have h : frame ∈ whole (lines pipe) := by cases pipe <;> exact h
    rcases List.mem_append.1 h with hline | hend
    · obtain ⟨text, -, rfl⟩ := List.mem_map.1 hline
      rfl
    · rw [List.mem_singleton.1 hend]
      rfl
  complete pipe := by
    rw [Pipeline.transit_eq]
    cases pipe <;> exact ahead_whole _ _
  awaited := rfl
  handed := rfl
  state := rfl

variable {handler : Handler σ} {lines : Pipe → List String} {state : σ} {taken : List Entry}
  {s t : Tasks σ}

/-- What the consumer takes was in front of what is in transit. -/
lemma Sound.complete_of_taken {e : Entry} {pipeline : Pipeline}
    (h : Sound handler lines state taken s) (htaken : Pipeline.Taken e s.pipeline pipeline)
    (pipe : Pipe) :
    (taken ++ [e]).filter (·.pipe = pipe) ++ pipeline.transit pipe = entries lines pipe := by
  rw [← h.complete pipe, htaken.transit_eq, List.filter_append, List.append_assoc]
  by_cases he : e.pipe = pipe <;> simp [he]

lemma Sound.step (h : Sound handler lines state taken s) (hstep : Step handler s t) :
    ∃ taken, Sound handler lines state taken t := by
  cases hstep with
  | pump pipe hstep =>
    have hpumped := Pipeline.pumped_of_advance? hstep
    refine ⟨taken, Pipeline.length_queue_advance? hstep h.bounded, fun q frame hframe => ?_,
      fun q => ?_, h.awaited, h.handed, h.state⟩
    · obtain ⟨first, rest, hpending, -, hself, hother, -⟩ := hpumped
      rcases eq_or_eq_other pipe q with rfl | rfl
      · exact h.entry q frame (by rw [hpending]; exact List.mem_cons_of_mem _ (hself ▸ hframe))
      · exact h.entry pipe.other frame (hother ▸ hframe)
    · rw [hpumped.transit_eq]
      exact h.complete q
  | @deliver pipe text pipeline hawaits htake hhandled =>
    have htaken := Pipeline.taken_of_take? htake
    refine ⟨taken ++ [.line pipe text], ?_, ?_, h.complete_of_taken htaken, ?_, ?_, ?_⟩
    · have := h.bounded
      rw [htaken.queue, List.length_cons] at this
      exact Nat.le_of_succ_le this
    · exact fun q frame hframe => h.entry q frame (htaken.pending q ▸ hframe)
    · simpa [Entry.isEnd] using h.awaited
    · simp [h.handed]
    · simp [h.state]
  | @markEnd pipe pipeline hawaits htake =>
    have htaken := Pipeline.taken_of_take? htake
    refine ⟨taken ++ [.ended pipe], ?_, ?_, h.complete_of_taken htaken, ?_, ?_, h.state⟩
    · have := h.bounded
      rw [htaken.queue, List.length_cons] at this
      exact Nat.le_of_succ_le this
    · exact fun q frame hframe => h.entry q frame (htaken.pending q ▸ hframe)
    · have := h.awaited
      simp only [List.countP_append, List.countP_singleton, Entry.isEnd, if_true]
      omega
    · simp [h.handed]

lemma sound_of_steps (h : Steps handler (start lines state) s) :
    ∃ taken, Sound handler lines state taken s := by
  induction h with
  | refl => exact ⟨[], sound_start handler lines state⟩
  | tail _ hstep ih =>
    obtain ⟨taken, hsound⟩ := ih
    exact hsound.step hstep

/-! ### The order of each pipe -/

/-- The lines of a pipe that the handler has got. -/
def handedFrom (s : Tasks σ) (pipe : Pipe) : List String :=
  (s.handed.filter (·.1 = pipe)).map (·.2)

/-- The lines of a pipe in the queue. -/
def queuedFrom (s : Tasks σ) (pipe : Pipe) : List String :=
  (s.pipeline.queue.filter (·.pipe = pipe)).filterMap Entry.text?

/-- The lines that the pump of a pipe still holds. -/
def unreadFrom (s : Tasks σ) (pipe : Pipe) : List String :=
  (s.pipeline.pending pipe).filterMap Frame.text?

lemma texts_handed (taken : List Entry) (pipe : Pipe) :
    ((taken.filterMap Entry.line?).filter (·.1 = pipe)).map (·.2) =
      (taken.filter (·.pipe = pipe)).filterMap Entry.text? := by
  induction taken with
  | nil => rfl
  | cons e taken ih =>
    cases e with
    | line p text =>
      rw [List.filterMap_cons_some (Entry.line?_line p text)]
      by_cases hp : p = pipe <;> simp [hp, ih]
    | ended p =>
      rw [List.filterMap_cons_none (Entry.line?_ended p), ih, List.filter_cons]
      split
      · rw [List.filterMap_cons_none (Entry.text?_ended p)]
      · rfl

lemma texts_entries (lines : Pipe → List String) (pipe : Pipe) :
    (entries lines pipe).filterMap Entry.text? = lines pipe := by
  simp [entries, List.filterMap_append, List.filterMap_map, Function.comp_def]

/-- Of each pipe, the lines that were handed on, those in the queue and those behind it are all its
lines. -/
lemma Sound.lines_eq (h : Sound handler lines state taken s) (pipe : Pipe) :
    s.handedFrom pipe ++ s.queuedFrom pipe ++ s.unreadFrom pipe = lines pipe := by
  have hcomplete := congrArg (List.filterMap Entry.text?) (h.complete pipe)
  rw [Pipeline.transit_eq, texts_entries, List.filterMap_append, List.filterMap_append,
    Pipeline.texts_ahead, ← List.append_assoc, ← texts_handed, ← h.handed] at hcomplete
  exact hcomplete

/-! ### The end -/

lemma countP_isEnd_entries (lines : Pipe → List String) (pipe : Pipe) :
    (entries lines pipe).countP Entry.isEnd = 1 := by
  simp [entries, List.countP_append, List.countP_map, Function.comp_def, Entry.isEnd]

/-- Something is in transit from a pipe as long as its end mark is. -/
lemma Sound.transit_eq_nil (h : Sound handler lines state taken s) (pipe : Pipe) :
    s.pipeline.transit pipe = [] ↔ (s.pipeline.transit pipe).countP Entry.isEnd = 0 := by
  constructor
  · intro hnil
    rw [hnil, List.countP_nil]
  · intro hcount
    -- what is in transit is an end part of all there is, and that ends with the mark
    rcases List.eq_nil_or_concat (s.pipeline.transit pipe) with hnil | ⟨front, last, hlast⟩
    · exact hnil
    have hcomplete := h.complete pipe
    rw [hlast, List.concat_eq_append, ← List.append_assoc, entries] at hcomplete
    obtain ⟨-, hlast'⟩ := List.append_inj' hcomplete rfl
    rw [hlast, List.concat_eq_append, hlast', List.countP_append] at hcount
    simp [Entry.isEnd] at hcount

/-- The consumer waits for the end marks that are in transit. -/
lemma Sound.awaited_eq (h : Sound handler lines state taken s) :
    s.awaited = (s.pipeline.transit .stdout).countP Entry.isEnd +
      (s.pipeline.transit .stderr).countP Entry.isEnd := by
  have hout := congrArg (List.countP Entry.isEnd) (h.complete .stdout)
  have herr := congrArg (List.countP Entry.isEnd) (h.complete .stderr)
  rw [List.countP_append, countP_isEnd_entries] at hout herr
  have hsplit := List.countP_eq_countP_filter_add taken Entry.isEnd (·.pipe = .stdout)
  have herr' : (taken.filter fun e => !decide (e.pipe = .stdout)) =
      taken.filter (·.pipe = .stderr) := by
    refine List.filter_congr fun e _ => ?_
    cases e.pipe <;> rfl
  rw [herr'] at hsplit
  have := h.awaited
  omega

/-- The consumer has seen all end marks just when nothing is in transit. -/
lemma Sound.finished_iff (h : Sound handler lines state taken s) :
    s.awaited = 0 ↔ ∀ pipe, s.pipeline.transit pipe = [] := by
  rw [h.awaited_eq, Nat.add_eq_zero_iff, ← h.transit_eq_nil, ← h.transit_eq_nil]
  constructor
  · rintro ⟨hout, herr⟩ pipe
    cases pipe <;> assumption
  · exact fun hall => ⟨hall _, hall _⟩

lemma Sound.pending_eq_nil (h : Sound handler lines state taken s) (hdone : s.awaited = 0)
    (pipe : Pipe) : s.pipeline.pending pipe = [] := by
  have hnil := h.finished_iff.1 hdone pipe
  rw [Pipeline.transit_eq, List.append_eq_nil_iff] at hnil
  refine List.eq_nil_iff_forall_not_mem.2 fun frame hframe => ?_
  have := List.filterMap_eq_nil_iff.1 hnil.2 frame hframe
  simpa [this] using h.entry pipe frame hframe

/-- At the end no task has a step left. -/
lemma Sound.stuck_of_finished (h : Sound handler lines state taken s) (hdone : s.awaited = 0) :
    ∀ t, ¬ Step handler s t := by
  intro t hstep
  cases hstep with
  | pump pipe hstep =>
    obtain ⟨_, _, hpending, -⟩ := Pipeline.pumped_of_advance? hstep
    rw [h.pending_eq_nil hdone pipe] at hpending
    cases hpending
  | deliver hawaits => exact hawaits hdone
  | markEnd hawaits => exact hawaits hdone

/-- Before the end some task has a step left: the consumer if there is anything in the queue, and
otherwise a pump, since there is room. -/
lemma Sound.exists_step (hhandler : ∀ pipe text state, (handler pipe text state).failure = none)
    (h : Sound handler lines state taken s) (hawaits : s.awaited ≠ 0) :
    ∃ t, Step handler s t := by
  rcases hqueue : s.pipeline.queue with _ | ⟨e, rest⟩
  · obtain ⟨pipe, hpipe⟩ := Classical.not_forall.1 (mt h.finished_iff.2 hawaits)
    rw [Pipeline.transit_eq, hqueue, List.filter_nil, List.nil_append] at hpipe
    rcases hstep : s.pipeline.advance? pipe with _ | ⟨pipeline, notices⟩
    · rcases Pipeline.pending_of_advance?_eq_none hstep with hnil | hfull
      · rw [Pipeline.ahead, hnil] at hpipe
        exact absurd rfl hpipe
      · rw [hqueue] at hfull
        exact absurd hfull (by decide)
    · exact ⟨_, .pump pipe hstep⟩
  · have htake : s.pipeline.take? = some (e, { s.pipeline with queue := rest }) := by
      rw [Pipeline.take?, hqueue]
    cases e with
    | line pipe text => exact ⟨_, .deliver hawaits htake (hhandler pipe text s.state)⟩
    | ended pipe => exact ⟨_, .markEnd hawaits htake⟩

/-- How much is left to do at most. -/
def work (s : Tasks σ) : Nat :=
  2 * ((s.pipeline.pending .stdout).length + (s.pipeline.pending .stderr).length) +
    s.pipeline.queue.length

/-- Every step gets something done. -/
lemma work_lt (h : Step handler s t) : t.work < s.work := by
  cases h with
  | pump pipe hstep =>
    obtain ⟨frame, rest, hpending, -, hself, hother, hqueue⟩ := Pipeline.pumped_of_advance? hstep
    have hone : (frame.entry? pipe).toList.length ≤ 1 := by cases frame.entry? pipe <;> simp
    cases pipe <;>
      simp only [Pipe.other] at hother <;>
      simp only [work, hpending, hself, hother, hqueue, List.length_append, List.length_cons] <;>
      omega
  | deliver _ htake _ =>
    have htaken := Pipeline.taken_of_take? htake
    simp only [work, htaken.pending, htaken.queue, List.length_cons]
    omega
  | markEnd _ htake =>
    have htaken := Pipeline.taken_of_take? htake
    simp only [work, htaken.pending, htaken.queue, List.length_cons]
    omega

/-- Every schedule can be brought to its end. -/
lemma exists_finished (hhandler : ∀ pipe text state, (handler pipe text state).failure = none)
    (h : Sound handler lines state taken s) : ∃ t, Steps handler s t ∧ t.awaited = 0 := by
  induction hwork : s.work using Nat.strongRecOn generalizing s taken with
  | _ n ih =>
    by_cases hdone : s.awaited = 0
    · exact ⟨s, .refl, hdone⟩
    · obtain ⟨t, hstep⟩ := h.exists_step hhandler hdone
      obtain ⟨taken', hsound⟩ := h.step hstep
      obtain ⟨u, hsteps, hu⟩ := ih t.work (hwork ▸ work_lt hstep) hsound rfl
      exact ⟨u, .head hstep hsteps, hu⟩

/-- **Every schedule delivers every line.**  The queue stays within its bound.  Of each pipe, what
the handler has got, what is queued and what is still to be read are at all times the lines of this
pipe in their order, so that the handler has got them all when the consumer has seen both end marks.
Before that some task can go on, and there is always a way to the end. -/
theorem schedules_deliver {handler : Handler σ}
    (hhandler : ∀ pipe text state, (handler pipe text state).failure = none)
    (lines : Pipe → List String) (state : σ) {s : Tasks σ}
    (h : Steps handler (start lines state) s) :
    s.pipeline.queue.length ≤ queueCapacity ∧
    (∀ pipe, s.handedFrom pipe ++ s.queuedFrom pipe ++ s.unreadFrom pipe = lines pipe) ∧
    s.state = s.handed.foldl (fun state line => (handler line.1 line.2 state).state) state ∧
    (s.awaited = 0 → ∀ pipe, s.handedFrom pipe = lines pipe) ∧
    ((∀ t, ¬ Step handler s t) ↔ s.awaited = 0) ∧
    ∃ t, Steps handler s t ∧ t.awaited = 0 := by
  obtain ⟨taken, hsound⟩ := sound_of_steps h
  refine ⟨hsound.bounded, hsound.lines_eq, hsound.state, fun hdone pipe => ?_, ?_,
    exists_finished hhandler hsound⟩
  · have hnil := hsound.finished_iff.1 hdone pipe
    rw [Pipeline.transit_eq, List.append_eq_nil_iff] at hnil
    have hlines := hsound.lines_eq pipe
    rwa [queuedFrom, unreadFrom, hnil.1, hsound.pending_eq_nil hdone, List.filterMap_nil,
      List.filterMap_nil, List.append_nil, List.append_nil] at hlines
  · constructor
    · intro hstuck
      by_contra hawaits
      obtain ⟨t, hstep⟩ := hsound.exists_step hhandler hawaits
      exact hstuck t hstep
    · exact hsound.stuck_of_finished

/-- Diagnostics overtake the output: their end mark is in the queue before the last line of the
output. -/
theorem schedules_deliver_overtaking :
    let lines : Pipe → List String := fun
      | .stdout => ["a"]
      | .stderr => ["b"]
    ∃ s, Steps Handler.silent (start lines ()) s ∧ s.awaited = 0 ∧
      s.handed = [(.stderr, "b"), (.stdout, "a")] ∧ ∀ pipe, s.handedFrom pipe = lines pipe := by
  intro lines
  have hsteps : Steps Handler.silent (start lines ())
      ⟨⟨[], [], []⟩, 0, [(.stderr, "b"), (.stdout, "a")], ()⟩ :=
    .head (.pump .stderr rfl) <| .head (.pump .stderr rfl) <| .head (.pump .stdout rfl) <|
      .head (.deliver (by decide) rfl rfl) <| .head (.markEnd (by decide) rfl) <|
      .head (.pump .stdout rfl) <| .head (.deliver (by decide) rfl rfl) <|
      .single (.markEnd (by decide) rfl)
  exact ⟨_, hsteps, rfl, rfl, (schedules_deliver (fun _ _ _ => rfl) lines () hsteps).2.2.2.1 rfl⟩

end Tasks
end BackupSteward.Engine
