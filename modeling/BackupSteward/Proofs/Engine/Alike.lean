import BackupSteward.Proofs.Engine.Delivery

/-!
# Handlers that behave alike

Two handlers that differ in nothing but what they keep for themselves lead a run to the same end.
What the log says of it may differ in two ways.  Some notices come from one of the handlers alone; a
selection of notices leaves them out.  And a handler that pauses lets a pump go on, so that the
notices of the pump come earlier among those of the handler.
-/

namespace BackupSteward.Engine

/-! ### Pumps that go on earlier -/

namespace Pipeline

variable {s t : Pipeline} {pump : Pipe}

/-- A step of a pump is the first one of its going on. -/
lemma fill_of_advance? {notices : List Notice} (h : s.advance? pump = some (t, notices)) :
    s.fill pump = ((t.fill pump).1, notices ++ (t.fill pump).2) := by
  obtain ⟨frame, rest, hpending, -, hself, -, -⟩ := pumped_of_advance? h
  rw [fill, hpending, advanceMany, h, fill, hself]

lemma fill_of_advance?_eq_none (h : s.advance? pump = none) : s.fill pump = (s, []) := by
  rw [fill]
  cases s.pending pump with
  | nil => rfl
  | cons frame rest => rw [advanceMany, h]

/-- A pump that has gone on does not go on again at once. -/
lemma fill_fill (s : Pipeline) (pump : Pipe) :
    (s.fill pump).1.fill pump = ((s.fill pump).1, []) :=
  fill_of_advance?_eq_none (advance?_advanceMany _ s (Nat.le_refl _))

lemma setPending_withQueue (s : Pipeline) (queue : List Entry) (pipe : Pipe) (frames : List Frame) :
    ({ s with queue } : Pipeline).setPending pipe frames =
      { s.setPending pipe frames with queue } := by
  cases pipe <;> rfl

lemma take?_eq_some {e : Entry} {u : Pipeline} :
    s.take? = some (e, u) ↔ ∃ rest, s.queue = e :: rest ∧ u = { s with queue := rest } := by
  unfold take?
  cases s.queue with
  | nil => simp
  | cons first rest =>
    constructor
    · intro h
      cases h
      exact ⟨rest, rfl, rfl⟩
    · rintro ⟨rest, h, rfl⟩
      cases h
      rfl

/-- Where there is room for an entry, there is room for it without the oldest one. -/
lemma enqueue?_of_take? {e entry : Entry} {u : Pipeline} (htake : s.take? = some (e, u))
    (h : s.enqueue? entry = some t) :
    ∃ v, t.take? = some (e, v) ∧ u.enqueue? entry = some v := by
  obtain ⟨rest, hqueue, rfl⟩ := take?_eq_some.1 htake
  unfold enqueue? at h
  split at h
  case isFalse => cases h
  case isTrue hroom =>
    cases h
    rw [hqueue, List.length_cons] at hroom
    refine ⟨{ s with queue := rest ++ [entry] }, take?_eq_some.2 ⟨rest ++ [entry], ?_, rfl⟩, ?_⟩
    · rw [hqueue, List.cons_append]
    · rw [enqueue?, if_pos (Nat.lt_of_succ_lt hroom)]

/-- It does not matter to a step of a pump whether the consumer takes an entry first. -/
lemma advance?_of_take? {e : Entry} {u : Pipeline} {notices : List Notice}
    (htake : s.take? = some (e, u)) (h : s.advance? pump = some (t, notices)) :
    ∃ v, t.take? = some (e, v) ∧ u.advance? pump = some (v, notices) := by
  have hpending := (taken_of_take? htake).pending pump
  have hset (frames : List Frame) :
      (s.setPending pump frames).take? = some (e, u.setPending pump frames) := by
    obtain ⟨rest, hqueue, rfl⟩ := take?_eq_some.1 htake
    exact take?_eq_some.2
      ⟨rest, (queue_setPending s pump frames).trans hqueue, setPending_withQueue s rest pump frames⟩
  have hentry (entry : Entry) (rest : List Frame)
      (h : ((s.setPending pump rest).enqueue? entry).map (fun s => (s, [])) = some (t, notices)) :
      ∃ v, t.take? = some (e, v) ∧
        ((u.setPending pump rest).enqueue? entry).map (fun s => (s, [])) = some (v, notices) := by
    obtain ⟨t, henqueue, heq⟩ := Option.map_eq_some_iff.1 h
    cases heq
    obtain ⟨v, hv, hu⟩ := enqueue?_of_take? (hset rest) henqueue
    exact ⟨v, hv, by rw [hu, Option.map_some]⟩
  unfold advance? at h ⊢
  rw [hpending]
  cases hframes : s.pending pump with
  | nil =>
    rw [hframes] at h
    cases h
  | cons frame rest =>
    rw [hframes] at h
    cases frame with
    | line text => exact hentry (.line pump text) rest h
    | tooLong =>
      cases h
      exact ⟨_, hset rest, rfl⟩
    | failed error =>
      cases h
      exact ⟨_, hset rest, rfl⟩
    | finished => exact hentry (.ended pump) rest h

/-- Nor does it matter whether the consumer takes an entry before a pump goes on or behind that. -/
lemma fill_of_take? {e : Entry} {u : Pipeline} (htake : s.take? = some (e, u)) (pump : Pipe) :
    ∃ v, (s.fill pump).1.take? = some (e, v) ∧
      u.fill pump = ((v.fill pump).1, (s.fill pump).2 ++ (v.fill pump).2) := by
  generalize hframes : s.pending pump = frames
  induction frames generalizing s u with
  | nil =>
    have hstuck : s.advance? pump = none := by rw [advance?, hframes]
    rw [fill_of_advance?_eq_none hstuck]
    exact ⟨u, htake, rfl⟩
  | cons frame rest ih =>
    rcases hstep : s.advance? pump with _ | ⟨t, notices⟩
    · rw [fill_of_advance?_eq_none hstep]
      exact ⟨u, htake, rfl⟩
    obtain ⟨_, _, hpending, -, hself, -, -⟩ := pumped_of_advance? hstep
    obtain ⟨v, hv, hu⟩ := advance?_of_take? htake hstep
    cases hframes.symm.trans hpending
    obtain ⟨w, hw, hfill⟩ := ih hv hself
    refine ⟨w, ?_, ?_⟩
    · rw [fill_of_advance? hstep]
      exact hw
    · rw [fill_of_advance? hu, fill_of_advance? hstep, hfill, List.append_assoc]

end Pipeline

variable {σ τ : Type}

/-! ### Reactions and runs that are alike -/

/-- What a handler tells the log about a line. -/
def Reaction.told (r : Reaction σ) : List Notice := r.notices ++ r.resumed.getD []

/-- Two handlers do the same with a line: the states are related behind it, and they tell the log
the same, as far as notices are selected. -/
structure Reaction.Alike (rel : σ → τ → Prop) (sel : Notice → Bool) (r : Reaction σ)
    (r' : Reaction τ) : Prop where
  state : rel r.state r'.state
  failure : r.failure = r'.failure
  told : r.told.filter sel = r'.told.filter sel

/-- Two handlers do the same with a line, and both or none of them pause. -/
structure Reaction.InStep (rel : σ → τ → Prop) (sel : Notice → Bool) (r : Reaction σ)
    (r' : Reaction τ) : Prop where
  state : rel r.state r'.state
  failure : r.failure = r'.failure
  notices : r.notices.filter sel = r'.notices.filter sel
  resumed : r.resumed.map (·.filter sel) = r'.resumed.map (·.filter sel)

/-- Two handlers do the same with each line when their states are related. -/
def Handler.Alike (rel : σ → τ → Prop) (sel : Notice → Bool) (handler : Handler σ)
    (handler' : Handler τ) : Prop :=
  ∀ pipe text state state', rel state state' →
    (handler pipe text state).Alike rel sel (handler' pipe text state')

/-- Two handlers do the same with each line, and both or none of them pause. -/
def Handler.InStep (rel : σ → τ → Prop) (sel : Notice → Bool) (handler : Handler σ)
    (handler' : Handler τ) : Prop :=
  ∀ pipe text state state', rel state state' →
    (handler pipe text state).InStep rel sel (handler' pipe text state')

/-- No notice of a handler is selected besides one of a pump. -/
def Handler.Apart (sel : Notice → Bool) (handler : Handler σ) : Prop :=
  ∀ pipe text state pump (s : Pipeline),
    (handler pipe text state).told.filter sel = [] ∨ (s.fill pump).2.filter sel = []

/-- Two runs have come to the same point, with the states of their handlers related, and the log
says the same of them, as far as notices are selected. -/
structure Progress.Alike (rel : σ → τ → Prop) (sel : Notice → Bool) (p : Progress σ)
    (q : Progress τ) : Prop where
  state : rel p.state q.state
  reader : p.reader = q.reader
  pipeline : p.pipeline = q.pipeline
  diagnostics : p.diagnostics = q.diagnostics
  notices : p.notices.filter sel = q.notices.filter sel

namespace Progress

variable {rel : σ → τ → Prop} {sel : Notice → Bool} {handler : Handler σ} {handler' : Handler τ}
  {p : Progress σ} {q : Progress τ}

namespace Alike

lemma add (h : Alike rel sel p q) (notices : List Notice) :
    Alike rel sel { p with notices := p.notices ++ notices }
      { q with notices := q.notices ++ notices } where
  state := h.state
  reader := h.reader
  pipeline := h.pipeline
  diagnostics := h.diagnostics
  notices := by rw [List.filter_append, List.filter_append, h.notices]

lemma withPipeline (h : Alike rel sel p q) (pipeline : Pipeline) :
    Alike rel sel { p with pipeline } { q with pipeline } :=
  ⟨h.state, h.reader, rfl, h.diagnostics, h.notices⟩

lemma fill (h : Alike rel sel p q) (pump : Pipe) : Alike rel sel (p.fill pump) (q.fill pump) := by
  have hq : q.fill pump = { q with
      pipeline := (p.pipeline.fill pump).1
      notices := q.notices ++ (p.pipeline.fill pump).2 } := by rw [h.pipeline]; rfl
  rw [hq]
  exact (h.add _).withPipeline _

lemma refill (h : Alike rel sel p q) (pump : Pipe) :
    Alike rel sel (p.refill pump) (q.refill pump) := by
  unfold Progress.refill
  rw [h.pipeline]
  split
  · exact h.fill pump
  · exact h

lemma keep (h : Alike rel sel p q) (pipe : Pipe) (text : String) :
    Alike rel sel (p.keep pipe text) (q.keep pipe text) := by
  cases pipe with
  | stdout => exact h
  | stderr =>
    exact ⟨h.state, h.reader, h.pipeline, congrArg (remember · text) h.diagnostics, h.notices⟩

lemma arrive (h : Alike rel sel p q) (pipe : Pipe) (read : LineReader × List Frame) :
    Alike rel sel (p.arrive pipe read) (q.arrive pipe read) := by
  have hpipeline : p.pipeline.arrive pipe read.2 = q.pipeline.arrive pipe read.2 := by
    rw [h.pipeline]
  refine ⟨?_, ?_, ?_, ?_, ?_⟩
  · cases pipe <;> exact h.state
  · rw [reader_arrive, reader_arrive, h.reader]
  · cases pipe <;> exact hpipeline
  · cases pipe <;> exact h.diagnostics
  · cases pipe <;> exact h.notices

lemma ignore (h : Alike rel sel p q) (pipe : Pipe) (read : LineReader × List Frame) :
    Alike rel sel (p.ignore pipe read) (q.ignore pipe read) := (h.arrive pipe read).fill pipe

lemma ignoreEnd (h : Alike rel sel p q) : Alike rel sel p.ignoreEnd q.ignoreEnd := by
  have hread (pipe : Pipe) {p : Progress σ} {q : Progress τ} (h : Alike rel sel p q) :
      Alike rel sel (p.ignore pipe (p.reader pipe).close)
        (q.ignore pipe (q.reader pipe).close) := by
    rw [h.reader]
    exact h.ignore pipe _
  exact hread .stderr (hread .stdout h)

end Alike

/-! ### Turns -/

section

variable (handler) {pump pipe : Pipe} {text : String} {pipeline : Pipeline} {turns : Nat}

lemma settle_of_none (h : (p.refill pump).pipeline.take? = none) :
    p.settle handler pump (turns + 1) = (p.refill pump, none) := by
  simp only [settle, h]

lemma settle_of_ended (h : (p.refill pump).pipeline.take? = some (.ended pipe, pipeline)) :
    p.settle handler pump (turns + 1) =
      ({ p.refill pump with pipeline } : Progress σ).settle handler pump turns := by
  simp only [settle, h]

lemma settle_of_line (h : (p.refill pump).pipeline.take? = some (.line pipe text, pipeline))
    (htaken : (handler pipe text (p.refill pump).state).failure = none) :
    p.settle handler pump (turns + 1) =
      ((({ p.refill pump with pipeline } : Progress σ).keep pipe text).react pump
        (handler pipe text (p.refill pump).state)).settle handler pump turns := by
  simp only [settle, h, htaken]

lemma settle_of_failed {failure : Failure}
    (h : (p.refill pump).pipeline.take? = some (.line pipe text, pipeline))
    (hfails : (handler pipe text (p.refill pump).state).failure = some failure) :
    p.settle handler pump (turns + 1) =
      (((({ p.refill pump with pipeline } : Progress σ).keep pipe text).react pump
        (handler pipe text (p.refill pump).state)).fill pump, some failure) := by
  simp only [settle, h, hfails]

end

/-! ### Handlers in step -/

lemma alike_react_inStep {r : Reaction σ} {r' : Reaction τ} (h : Alike rel sel p q)
    (hr : r.InStep rel sel r') (pump : Pipe) :
    Alike rel sel (p.react pump r) (q.react pump r') := by
  have hbefore : Alike rel sel { p with state := r.state, notices := p.notices ++ r.notices }
      { q with state := r'.state, notices := q.notices ++ r'.notices } :=
    ⟨hr.state, h.reader, h.pipeline, h.diagnostics, by
      rw [List.filter_append, List.filter_append, h.notices, hr.notices]⟩
  have hresumed := hr.resumed
  unfold react
  cases hp : r.resumed with
  | none =>
    rw [hp, Option.map_none] at hresumed
    rw [Option.map_eq_none_iff.1 hresumed.symm]
    exact hbefore
  | some notices =>
    rw [hp, Option.map_some] at hresumed
    obtain ⟨notices', hq, hnotices⟩ := Option.map_eq_some_iff.1 hresumed.symm
    rw [hq]
    have hfilled := hbefore.fill pump
    exact ⟨hfilled.state, hfilled.reader, hfilled.pipeline, hfilled.diagnostics, by
      rw [List.filter_append, List.filter_append, hfilled.notices, hnotices]⟩

/-- Handlers in step keep the runs alike from turn to turn. -/
lemma alike_settle_inStep (hhandlers : handler.InStep rel sel handler') (pump : Pipe) (turns : Nat)
    (h : Alike rel sel p q) :
    (p.settle handler pump turns).2 = (q.settle handler' pump turns).2 ∧
      Alike rel sel (p.settle handler pump turns).1 (q.settle handler' pump turns).1 := by
  induction turns generalizing p q with
  | zero => exact ⟨rfl, h⟩
  | succ turns ih =>
    have hrefilled := h.refill pump
    unfold settle
    dsimp only
    generalize p.refill pump = p at hrefilled
    generalize q.refill pump = q at hrefilled
    rw [← hrefilled.pipeline]
    rcases p.pipeline.take? with _ | ⟨_ | _, pipeline⟩
    · exact ⟨rfl, hrefilled⟩
    case some.line pipe text =>
      have hr := hhandlers pipe text p.state q.state hrefilled.state
      have hreacted := alike_react_inStep ((hrefilled.withPipeline pipeline).keep pipe text) hr pump
      dsimp only
      rw [← hr.failure]
      cases (handler pipe text p.state).failure with
      | none => exact ih hreacted
      | some failure => exact ⟨rfl, hreacted.fill pump⟩
    case some.ended pipe => exact ih (hrefilled.withPipeline pipeline)

/-! ### Handlers that are not in step -/

lemma fill_fill (p : Progress σ) (pump : Pipe) : (p.fill pump).fill pump = p.fill pump := by
  unfold fill
  simp only [Pipeline.fill_fill, List.append_nil]

lemma fill_refill (p : Progress σ) (pump : Pipe) : (p.refill pump).fill pump = p.fill pump := by
  unfold refill
  split
  · exact p.fill_fill pump
  · rfl

lemma keep_fill (p : Progress σ) (pump pipe : Pipe) (text : String) :
    (p.fill pump).keep pipe text = (p.keep pipe text).fill pump := by cases pipe <;> rfl

/-- When the consumer finds nothing, the pump has nothing left. -/
lemma take?_fill_of_none {pump : Pipe} (h : (p.refill pump).pipeline.take? = none) :
    (p.fill pump).pipeline.take? = none := by
  have hqueue := Pipeline.queue_of_take?_eq_none h
  have hstuck : (p.refill pump).pipeline.advance? pump = none := by
    rw [Pipeline.advance?, (p.filled_refill pump).2 hqueue]
  have hfill : ((p.refill pump).fill pump).pipeline = (p.refill pump).pipeline :=
    congrArg Prod.fst (Pipeline.fill_of_advance?_eq_none hstuck)
  rw [← p.fill_refill pump, hfill, h]

/-- What the consumer takes is settled by what the pump comes to, and so is what the pump comes to
behind that. -/
lemma take?_fill_of_some {pump : Pipe} {e : Entry} {s : Pipeline}
    (h : (p.refill pump).pipeline.take? = some (e, s)) :
    ∃ t, (p.fill pump).pipeline.take? = some (e, t) ∧
      ({ p.refill pump with pipeline := s } : Progress σ).fill pump =
        ({ p.fill pump with pipeline := t } : Progress σ).fill pump := by
  obtain ⟨t, ht, hfill⟩ := Pipeline.fill_of_take? h pump
  rw [← p.fill_refill pump]
  refine ⟨t, ht, ?_⟩
  unfold fill
  simp only [hfill, List.append_assoc]

/-- Behind a reaction the pump comes to the same point, whether the handler has paused or not. -/
lemma fill_react (p : Progress σ) (pump : Pipe) (r : Reaction σ) :
    (p.react pump r).fill pump = { p.fill pump with
      state := r.state
      notices := p.notices ++ r.notices ++ (p.pipeline.fill pump).2 ++ r.resumed.getD [] } := by
  unfold react
  cases r.resumed with
  | none =>
    rw [Option.getD_none, List.append_nil]
    rfl
  | some notices =>
    unfold fill
    simp only [Pipeline.fill_fill, List.append_nil, Option.getD_some]

/-- Of the notices either those of the handler or those of the pump do not count. -/
lemma notices_react (p : Progress σ) {pump : Pipe} {r : Reaction σ}
    (hapart : r.told.filter sel = [] ∨ (p.pipeline.fill pump).2.filter sel = []) :
    ((p.react pump r).fill pump).notices.filter sel =
      (p.fill pump).notices.filter sel ++ r.told.filter sel := by
  have hfilled : (p.fill pump).notices = p.notices ++ (p.pipeline.fill pump).2 := rfl
  rw [fill_react, hfilled]
  simp only [Reaction.told, List.filter_append, List.append_eq_nil_iff,
    List.append_assoc] at hapart ⊢
  rcases hapart with ⟨hnotices, hresumed⟩ | hnone
  · rw [hnotices, hresumed]
    simp
  · rw [hnone]
    simp

lemma alike_react {r : Reaction σ} {r' : Reaction τ} {pump : Pipe}
    (h : Alike rel sel (p.fill pump) (q.fill pump)) (hr : r.Alike rel sel r')
    (hp : r.told.filter sel = [] ∨ (p.pipeline.fill pump).2.filter sel = [])
    (hq : r'.told.filter sel = [] ∨ (q.pipeline.fill pump).2.filter sel = []) :
    Alike rel sel ((p.react pump r).fill pump) ((q.react pump r').fill pump) where
  state := by
    rw [fill_react, fill_react]
    exact hr.state
  reader := by
    rw [fill_react, fill_react]
    exact h.reader
  pipeline := by
    rw [fill_react, fill_react]
    exact h.pipeline
  diagnostics := by
    rw [fill_react, fill_react]
    exact h.diagnostics
  notices := by rw [notices_react p hp, notices_react q hq, h.notices, hr.told]

/-- Handlers keep the runs alike, up to what the pump has still to do.  The notices that count come
from one side only. -/
lemma alike_settle (hhandlers : handler.Alike rel sel handler') (hp : handler.Apart sel)
    (hq : handler'.Apart sel) (pump : Pipe) (turns : Nat)
    (h : Alike rel sel (p.fill pump) (q.fill pump)) :
    (p.settle handler pump turns).2 = (q.settle handler' pump turns).2 ∧
      Alike rel sel ((p.settle handler pump turns).1.fill pump)
        ((q.settle handler' pump turns).1.fill pump) := by
  induction turns generalizing p q with
  | zero => exact ⟨rfl, h⟩
  | succ turns ih =>
    have hrefilled : Alike rel sel ((p.refill pump).fill pump) ((q.refill pump).fill pump) := by
      rwa [fill_refill, fill_refill]
    rcases htakep : (p.refill pump).pipeline.take? with _ | ⟨e, s⟩
    · have hnone := take?_fill_of_none htakep
      rcases htakeq : (q.refill pump).pipeline.take? with _ | ⟨e', s'⟩
      · rw [settle_of_none handler htakep, settle_of_none handler' htakeq]
        exact ⟨rfl, hrefilled⟩
      · obtain ⟨t, ht, -⟩ := take?_fill_of_some htakeq
        rw [h.pipeline, ht] at hnone
        cases hnone
    obtain ⟨t, ht, hfill⟩ := take?_fill_of_some htakep
    rcases htakeq : (q.refill pump).pipeline.take? with _ | ⟨e', s'⟩
    · have hnone := take?_fill_of_none htakeq
      rw [← h.pipeline, ht] at hnone
      cases hnone
    obtain ⟨t', ht', hfill'⟩ := take?_fill_of_some htakeq
    rw [← h.pipeline, ht] at ht'
    cases ht'
    -- behind the same entry the pump comes to the same point in both runs
    have htaken : Alike rel sel (({ p.refill pump with pipeline := s } : Progress σ).fill pump)
        (({ q.refill pump with pipeline := s' } : Progress τ).fill pump) := by
      rw [hfill, hfill']
      exact (h.withPipeline t).fill pump
    cases e with
    | ended pipe =>
      rw [settle_of_ended handler htakep, settle_of_ended handler' htakeq]
      exact ih htaken
    | line pipe text =>
      have hr := hhandlers pipe text _ _ hrefilled.state
      have hkept := htaken.keep pipe text
      rw [keep_fill, keep_fill] at hkept
      have hreacted := alike_react hkept hr (hp pipe text _ pump _) (hq pipe text _ pump _)
      rcases hfails : (handler pipe text (p.refill pump).state).failure with _ | failure
      · rw [settle_of_line handler htakep hfails,
          settle_of_line handler' htakeq (hr.failure ▸ hfails)]
        exact ih hreacted
      · rw [settle_of_failed handler htakep hfails,
          settle_of_failed handler' htakeq (hr.failure ▸ hfails)]
        exact ⟨rfl, hreacted.fill pump⟩

/-- A pump that waited for room has gone on when the handler has failed. -/
lemma fill_settle_of_failed {pump : Pipe} {turns : Nat} {failure : Failure}
    (h : (p.settle handler pump turns).2 = some failure) :
    (p.settle handler pump turns).1.fill pump = (p.settle handler pump turns).1 := by
  induction turns generalizing p with
  | zero => cases h
  | succ turns ih =>
    rcases htake : (p.refill pump).pipeline.take? with _ | ⟨_ | _, s⟩
    · rw [settle_of_none handler htake] at h
      cases h
    case some.line pipe text =>
      rcases hfails : (handler pipe text (p.refill pump).state).failure with _ | failure
      · rw [settle_of_line handler htake hfails] at h ⊢
        exact ih h
      · rw [settle_of_failed handler htake hfails]
        exact fill_fill _ pump
    case some.ended pipe =>
      rw [settle_of_ended handler htake] at h ⊢
      exact ih h

end Progress

/-! ### Whole runs -/

section

variable {rel : σ → τ → Prop} {sel : Notice → Bool} {handler : Handler σ} {handler' : Handler τ}
  {p : Progress σ} {q : Progress τ}

/-- Two steps of a run have failed both or not, and lead to points that are alike. -/
structure StepsAlike (rel : σ → τ → Prop) (sel : Notice → Bool)
    (step : Progress σ × Option Failure) (step' : Progress τ × Option Failure) : Prop where
  failure : step.2 = step'.2
  progress : step.1.Alike rel sel step'.1

/-- Two handlers keep runs alike with each read. -/
def Handler.KeepAlike (rel : σ → τ → Prop) (sel : Notice → Bool) (handler : Handler σ)
    (handler' : Handler τ) : Prop :=
  ∀ (p : Progress σ) (q : Progress τ) (pipe : Pipe) (read : LineReader × List Frame),
    p.pipeline = .start → p.Alike rel sel q →
      StepsAlike rel sel (p.handle handler pipe read) (q.handle handler' pipe read)

lemma Handler.InStep.keepAlike (h : handler.InStep rel sel handler') :
    handler.KeepAlike rel sel handler' := by
  intro p q pipe read hp hpq
  have harrived := hpq.arrive pipe read
  unfold Progress.handle
  dsimp only
  rw [← harrived.pipeline]
  obtain ⟨hfailure, hprogress⟩ := Progress.alike_settle_inStep h pipe
    ((p.arrive pipe read).pipeline.queue.length +
      ((p.arrive pipe read).pipeline.pending pipe).length + 1) harrived
  exact ⟨hfailure, hprogress⟩

/-- When a read has been handled, the pump has nothing to do. -/
lemma Progress.fill_handle (handler : Handler σ) (hp : p.pipeline = .start) (pipe : Pipe)
    (read : LineReader × List Frame) :
    (p.handle handler pipe read).1.fill pipe = (p.handle handler pipe read).1 := by
  rcases hfails : (p.handle handler pipe read).2 with _ | failure
  · have hsettled := (Progress.told_handle handler hp pipe read).settled hfails
    generalize (p.handle handler pipe read).1 = q at hsettled
    obtain ⟨state, out, err, pipeline, diagnostics, notices⟩ := q
    cases hsettled
    cases pipe <;> simp [fill, Pipeline.fill, Pipeline.pending, Pipeline.advanceMany]
  · exact fill_settle_of_failed hfails

lemma Handler.Alike.keepAlike (h : handler.Alike rel sel handler') (hp : handler.Apart sel)
    (hq : handler'.Apart sel) : handler.KeepAlike rel sel handler' := by
  intro p q pipe read hstart hpq
  have harrived := hpq.arrive pipe read
  have hfill := p.fill_handle handler hstart pipe read
  have hfill' := q.fill_handle handler' (hpq.pipeline ▸ hstart) pipe read
  unfold Progress.handle at hfill hfill' ⊢
  dsimp only at hfill hfill' ⊢
  rw [← harrived.pipeline] at hfill' ⊢
  obtain ⟨hfailure, hprogress⟩ := Progress.alike_settle h hp hq pipe
    ((p.arrive pipe read).pipeline.queue.length +
      ((p.arrive pipe read).pipeline.pending pipe).length + 1) (harrived.fill pipe)
  rw [hfill, hfill'] at hprogress
  exact ⟨hfailure, hprogress⟩

/-- Two watched processes have ended alike. -/
structure Watched.Alike (rel : σ → τ → Prop) (sel : Notice → Bool) (w : Watched σ)
    (w' : Watched τ) : Prop where
  progress : w.progress.Alike rel sel w'.progress
  cause : w.cause = w'.cause
  rest : w.rest = w'.rest

lemma StepsAlike.orStop {step : Progress σ × Option Failure} {step' : Progress τ × Option Failure}
    (h : StepsAlike rel sel step step') (rest : List Action) {next : Progress σ → Watched σ}
    {next' : Progress τ → Watched τ}
    (hnext : step.2 = none → (next step.1).Alike rel sel (next' step'.1)) :
    (Watched.orStop step rest next).Alike rel sel (Watched.orStop step' rest next') := by
  obtain ⟨p, failure⟩ := step
  obtain ⟨q, failure'⟩ := step'
  obtain ⟨hfailure, hprogress⟩ := h
  dsimp only at hfailure
  subst hfailure
  cases failure with
  | none => exact hnext rfl
  | some failure => exact ⟨hprogress, rfl, rfl⟩

section

variable (h : handler.KeepAlike rel sel handler') (hstart : p.pipeline = .start)
  (hpq : p.Alike rel sel q)

include h hstart hpq

lemma alike_hear (reads : List Read) :
    StepsAlike rel sel (p.hear handler reads) (q.hear handler' reads) := by
  induction reads generalizing p q with
  | nil => exact ⟨rfl, hpq⟩
  | cons read reads ih =>
    obtain ⟨pipe, read⟩ := read
    have hstep := h p q pipe (read (p.reader pipe)) hstart hpq
    have hsettled := (Progress.told_handle handler hstart pipe (read (p.reader pipe))).settled
    unfold Progress.hear
    rw [← hpq.reader]
    generalize p.handle handler pipe (read (p.reader pipe)) = step at hstep hsettled
    generalize q.handle handler' pipe (read (p.reader pipe)) = step' at hstep
    obtain ⟨p, _ | failure⟩ := step <;> obtain ⟨q, failure'⟩ := step' <;> cases hstep.failure
    · exact ih (hsettled rfl) hstep.progress
    · exact hstep

/-- Some reads go before what is watched then. -/
lemma alike_orStop (reads : List Read) (rest : List Action) {next : Progress σ → Watched σ}
    {next' : Progress τ → Watched τ}
    (hnext : ∀ (p : Progress σ) (q : Progress τ), p.pipeline = .start → p.Alike rel sel q →
      (next p).Alike rel sel (next' q)) :
    (Watched.orStop (p.hear handler reads) rest next).Alike rel sel
      (.orStop (q.hear handler' reads) rest next') := by
  have hheard := alike_hear h hstart hpq reads
  refine hheard.orStop rest fun hnone => hnext _ _ ?_ hheard.progress
  exact ((Progress.hear_spec handler hstart reads).2 hnone).1

/-- Watching goes alike for both handlers. -/
lemma alike_watch (deadline : Option Rat) (actions : List Action) (now : Rat) :
    (watch handler deadline actions now p).Alike rel sel
      (watch handler' deadline actions now q) := by
  induction actions generalizing now p q with
  | nil =>
    have hended (p : Progress σ) (q : Progress τ) (_ : p.pipeline = .start)
        (h : p.Alike rel sel q) : (⟨p, none, []⟩ : Watched σ).Alike rel sel ⟨q, none, []⟩ :=
      ⟨h, rfl, rfl⟩
    have hend := alike_orStop h hstart hpq bothEnd [] hended
    rwa [Progress.hear_bothEnd, Progress.hear_bothEnd] at hend
  | cons action rest ih =>
    have hnext (stopped : List Action) := alike_orStop h hstart hpq action.reads stopped
      fun p q hp hpq => ih hp hpq now
    cases action with
    | write pipe chunk =>
      have hwrite := hnext rest
      rwa [Action.reads, Progress.hear_single, Progress.hear_single] at hwrite
    | failPipe pipe error =>
      have hfail := hnext rest
      rwa [Action.reads, Progress.hear_single, Progress.hear_single] at hfail
    | closeOutput =>
      have hclose := hnext (.closeOutput :: rest)
      rwa [Action.reads, Progress.hear_bothEnd, Progress.hear_bothEnd] at hclose
    | cancel => exact ⟨hpq, rfl, rfl⟩
    | hang => cases deadline <;> exact ⟨hpq, rfl, rfl⟩
    | sleep seconds =>
      cases deadline with
      | none => exact ih hstart hpq (now + seconds)
      | some limit =>
        by_cases hintime : now + seconds < limit
        · simp only [watch, hintime, if_true]
          exact ih hstart hpq (now + seconds)
        · simp only [watch, hintime, if_false]
          exact ⟨hpq, rfl, rfl⟩

end

/-- Two processes have been stopped alike. -/
structure Stopped.Alike (rel : σ → τ → Prop) (sel : Notice → Bool) (s : Stopped σ)
    (s' : Stopped τ) : Prop where
  progress : s.progress.Alike rel sel s'.progress
  signals : s.signals = s'.signals
  exit : s.exit = s'.exit
  interrupted : s.interrupted = s'.interrupted

lemma alike_kill (script : Script) (h : p.Alike rel sel q) :
    (kill script p).Alike rel sel (kill script q) := ⟨h.add [.killed], rfl, rfl, rfl⟩

lemma alike_linger (script : Script) (actions : List Action) (left : Rat)
    (h : p.Alike rel sel q) :
    (linger script actions left p).Alike rel sel (linger script actions left q) := by
  induction actions generalizing left p q with
  | nil => exact ⟨h.ignoreEnd, rfl, rfl, rfl⟩
  | cons action rest ih =>
    cases action with
    | write pipe chunk =>
      rw [linger, linger, ← h.reader]
      exact ih left (h.ignore pipe _)
    | failPipe pipe error =>
      rw [linger, linger, ← h.reader]
      exact ih left (h.ignore pipe _)
    | closeOutput => exact ih left h.ignoreEnd
    | cancel => exact ⟨h, rfl, rfl, rfl⟩
    | hang => exact alike_kill script h
    | sleep seconds =>
      rw [linger, linger]
      split
      · exact ih (left - seconds) h
      · exact alike_kill script h

lemma alike_stop (script : Script) (rest : List Action) (h : p.Alike rel sel q) :
    (stop script rest p).Alike rel sel (stop script rest q) := by
  unfold stop
  split
  · exact ⟨h, rfl, rfl, rfl⟩
  · split
    · exact alike_linger script rest graceSeconds h
    · exact ⟨h, rfl, rfl, rfl⟩

/-- Two runs come to the same, with the states of their handlers related, and the log says the same
of them, as far as notices are selected. -/
structure Run.Alike (rel : σ → τ → Prop) (sel : Notice → Bool) (r : Run σ) (r' : Run τ) : Prop where
  outcome : r.outcome = r'.outcome
  state : rel r.state r'.state
  notices : r.notices.filter sel = r'.notices.filter sel
  child : r.child = r'.child

namespace Request

variable (r : Request)

lemma alike_halt (script : Script) (failure : Failure) (rest : List Action)
    (h : p.Alike rel sel q) :
    (r.halt script failure rest p).Alike rel sel (r.halt script failure rest q) := by
  obtain ⟨hprogress, hsignals, hexit, hinterrupted⟩ := alike_stop script rest h
  refine ⟨?_, hprogress.state, hprogress.notices, ?_⟩
  · rw [halt, halt, hinterrupted]
  · rw [halt, halt, hsignals, hexit]

variable {state : σ} {state' : τ}

lemma alike_start (h : rel state state') (notices : List Notice) :
    ({ Progress.start state with notices } : Progress σ).Alike rel sel
      { Progress.start state' with notices } := ⟨h, rfl, rfl, rfl, rfl⟩

variable (h : handler.KeepAlike rel sel handler') (hstate : rel state state')

include h hstate

lemma alike_runScript (operation : Value) (script : Script) :
    (r.runScript operation script handler state).Alike rel sel
      (r.runScript operation script handler' state') := by
  have hstart : ({ Progress.start state with
      notices := [.started operation r.command] } : Progress σ).Alike rel sel
        { Progress.start state' with notices := [.started operation r.command] } :=
    alike_start hstate _
  unfold runScript
  cases r.limit? with
  | error fault => exact r.alike_halt script _ _ hstart
  | ok limit =>
    have hwatched : (watchWithin limit script handler { Progress.start state with
        notices := [.started operation r.command] }).Alike rel sel
          (watchWithin limit script handler' { Progress.start state' with
            notices := [.started operation r.command] }) := by
      unfold watchWithin
      split
      · exact ⟨hstart, rfl, rfl⟩
      · exact alike_watch h rfl hstart _ script.actions 0
    dsimp only
    generalize watchWithin limit script handler _ = w at hwatched
    generalize watchWithin limit script handler' _ = w' at hwatched
    obtain ⟨hprogress, hcause, hrest⟩ := hwatched
    rw [hcause, hrest]
    cases w'.cause with
    | none => exact ⟨by rw [hprogress.diagnostics], hprogress.state, (hprogress.add _).notices, rfl⟩
    | some cause =>
      cases cause with
      | unending => exact ⟨rfl, hprogress.state, hprogress.notices, rfl⟩
      | handlerFailed failure => exact r.alike_halt script _ _ (hprogress.add _)
      | deadline => exact r.alike_halt script _ _ (hprogress.add _)
      | cancelled => exact r.alike_halt script _ _ (hprogress.add _)

/-- Runs go alike for both handlers. -/
theorem alike_run (start : Start) :
    (r.run start handler state).Alike rel sel (r.run start handler' state') := by
  unfold run
  cases r.operationName with
  | error fault => exact ⟨rfl, hstate, rfl, rfl⟩
  | ok operation =>
    cases start with
    | refused error => exact ⟨rfl, hstate, rfl, rfl⟩
    | runs script => exact r.alike_runScript h hstate operation script

end Request

/-- Two sessions have come to the same, and their logs say the same, as far as notices are
selected. -/
structure Session.Alike (sel : Notice → Bool) (s t : Session) : Prop where
  environment : s.environment = t.environment
  invocation : s.invocation = t.invocation
  starts : s.starts = t.starts
  children : s.children = t.children
  written : s.written = t.written
  log : s.log.filter sel = t.log.filter sel

lemma Session.Alike.note {s t : Session} (h : s.Alike sel t) (notices : List Notice) :
    (s.note notices).Alike sel (t.note notices) := by
  have hlog : (s.log ++ notices).filter sel = (t.log ++ notices).filter sel := by
    rw [List.filter_append, List.filter_append, h.log]
  exact { h with log := hlog }

lemma Session.Alike.write {s t : Session} (h : s.Alike sel t) (text : String) :
    (s.write text).Alike sel (t.write text) :=
  { h with written := congrArg (· ++ text) h.written }

/-- Calls go alike for both handlers. -/
theorem Call.alike_run (c : Call) (h : handler.KeepAlike rel sel handler') {state : σ} {state' : τ}
    (hstate : rel state state') (s : Session) :
    (c.run handler state s).1 = (c.run handler' state' s).1 ∧
      rel (c.run handler state s).2.1 (c.run handler' state' s).2.1 ∧
      (c.run handler state s).2.2.Alike sel (c.run handler' state' s).2.2 := by
  obtain ⟨houtcome, hfinal, hnotices, hchild⟩ := (c.request s).alike_run h hstate s.nextStart
  refine ⟨by rw [run, run, houtcome], hfinal, rfl, rfl, ?_, ?_, rfl, ?_⟩
  · simp only [run, Session.add, hchild]
  · simp only [run, Session.add, hchild]
  · simp only [run, Session.add, List.filter_append, hnotices]

end

end BackupSteward.Engine
