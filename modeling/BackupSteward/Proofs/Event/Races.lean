import BackupSteward.Proofs.Event.Accounts
import BackupSteward.Proofs.Interleaving

/-!
# Races of the two pipes

The lines of a run come from two pipes, and nothing orders those of one pipe against those of the
other.  A collector counts messages, for which their order does not matter, and it keeps the first
summary, for which it does.  The file settles when the order can be seen in what the collector knows
at the end: only if both pipes carry a summary.
-/

namespace BackupSteward

variable {P S : Type}

/-! ### The messages -/

namespace Operation

variable {op : Operation P S} {out err lines : List String}

lemma length_messages_interleaving (h : Interleaving out err lines) :
    (op.messages lines).length = (op.messages (out ++ err)).length :=
  (h.perm.filterMap op.message?).length_eq

lemma itemErrors_interleaving (h : Interleaving out err lines) :
    op.itemErrors lines = op.itemErrors (out ++ err) :=
  (h.perm.filterMap op.message?).countP_eq Event.isError

lemma firstSummary?_eq_head? (lines : List String) :
    op.firstSummary? lines = ((op.messages lines).filterMap Event.summary?).head? :=
  List.head?_filterMap.symm

lemma firstSummary?_append (out err : List String) :
    op.firstSummary? (out ++ err) = (op.firstSummary? out).or (op.firstSummary? err) := by
  simp only [firstSummary?_eq_head?, messages, List.filterMap_append, List.head?_append]

variable (op) in
/-- The first one of all summaries is the first one of its pipe. -/
lemma firstSummary?_interleaving (h : Interleaving out err lines) :
    op.firstSummary? lines = (op.firstSummary? out).or (op.firstSummary? err) ∨
      op.firstSummary? lines = (op.firstSummary? err).or (op.firstSummary? out) := by
  simp only [firstSummary?_eq_head?]
  exact ((h.filterMap op.message?).filterMap Event.summary?).head?_eq

variable (op) in
/-- Two pipes do not carry summaries that differ in more than their counts. -/
def Agree (out err : List String) : Prop :=
  ∀ a b, op.firstSummary? out = some a → op.firstSummary? err = some b →
    ∀ n, op.withErrorCount a n = op.withErrorCount b n

variable (op) in
/-- Some lines carry no summary. -/
def Silent (lines : List String) : Prop :=
  ∀ line ∈ lines, ∀ summary, op.message? line ≠ some (.summary summary)

lemma agree_of_silent (h : op.Silent err) : op.Agree out err := by
  intro a b _ hb
  obtain ⟨event, hmem, hevent⟩ := List.exists_of_findSome?_eq_some hb
  obtain ⟨line, hline, hmessage⟩ := List.mem_filterMap.1 hmem
  cases event with
  | summary summary => exact absurd hmessage (h line hline summary)
  | progress _ => cases hevent
  | itemError _ => cases hevent

/-- If the summaries of the pipes agree then it does not matter which one comes first. -/
lemma recounted_interleaving (hagree : op.Agree out err) (h : Interleaving out err lines)
    (n : Nat) :
    (op.firstSummary? lines).map (op.withErrorCount · n) =
      (op.firstSummary? (out ++ err)).map (op.withErrorCount · n) := by
  rw [firstSummary?_append]
  rcases firstSummary?_interleaving op h with hfirst | hfirst <;> rw [hfirst]
  cases hout : op.firstSummary? out with
  | none => simp
  | some a =>
    cases herr : op.firstSummary? err with
    | none => rfl
    | some b => exact congrArg some (hagree a b hout herr n).symm

end Operation

namespace Collector

variable (op : Operation P S)

/-- Feeds lines to a collector, one after the other, up to the first one that is a fault. -/
def feedAll (c : Collector S) (lines : List String) : Except Fault (Collector S) :=
  lines.foldlM (fun c line => (c.feed op line).map Collected.collector) c

/-- Some lines make no collector fail. -/
def Harmless (lines : List String) : Prop :=
  ∀ line ∈ lines, ∀ (c : Collector S) (fault : Fault), c.feed op line ≠ .error fault

/-- The lines of two pipes lead a new collector to the same knowledge in whatever order they
come. -/
def Unraced (out err : List String) : Prop :=
  ∃ c, ∀ lines, Interleaving out err lines → Collector.start.feedAll op lines = .ok c

variable {op} {out err lines : List String}

lemma feedAll_of_harmless (h : Harmless op lines) (c : Collector S) :
    c.feedAll op lines = .ok (lines.foldl (next op) c) := by
  induction lines generalizing c with
  | nil => rfl
  | cons line lines ih =>
    have hfeed : (c.feed op line).map Collected.collector = .ok (c.next op line) := by
      unfold next
      cases hfeed : c.feed op line with
      | error fault => exact absurd hfeed (h line List.mem_cons_self c fault)
      | ok collected => rfl
    rw [feedAll, List.foldlM_cons, hfeed]
    exact ih (fun line hline => h line (List.mem_cons_of_mem _ hline)) _

lemma feedAll_interleaving (hharmless : Harmless op (out ++ err)) (h : Interleaving out err lines) :
    Collector.start.feedAll op lines = .ok (after op lines) :=
  feedAll_of_harmless (fun line hline => hharmless line (h.perm.subset hline)) .start

/-- What a collector knows after some lines, by their messages. -/
lemma after_eq (hop : op.CountIsField) (lines : List String) : after op lines =
    ⟨(op.firstSummary? lines).map (op.withErrorCount · (op.itemErrors lines)),
      op.itemErrors lines, (op.messages lines).length⟩ := by
  obtain ⟨herrors, hseen, hsummary⟩ := reflects_after hop lines
  rw [herrors] at hsummary
  cases h : after op lines
  rw [h] at herrors hseen hsummary
  cases herrors
  cases hseen
  cases hsummary
  rfl

/-- **The race of two pipes can be seen exactly if their first summaries differ.** -/
theorem unraced_iff (hop : op.CountIsField) (hharmless : Harmless op (out ++ err)) :
    Unraced op out err ↔ op.Agree out err := by
  constructor
  · rintro ⟨c, hsame⟩ a b hout herr n
    -- one pipe first, and then the other one first
    have hfront := hsame (out ++ err) (.append out err)
    have hback := hsame (err ++ out) (Interleaving.append err out).swap
    rw [feedAll_interleaving hharmless (.append out err), after_eq hop] at hfront
    rw [feedAll_interleaving hharmless (Interleaving.append err out).swap, after_eq hop] at hback
    have hsummary := congrArg Collector.summary (Except.ok.inj (hfront.trans hback.symm))
    simp only [Operation.firstSummary?_append, hout, herr, Option.some_or, Option.map_some,
      Option.some.injEq] at hsummary
    have hrecount := congrArg (op.withErrorCount · n) hsummary
    simpa only [hop.with_with] using hrecount
  · intro hagree
    refine ⟨after op (out ++ err), fun lines h => ?_⟩
    rw [feedAll_interleaving hharmless h, after_eq hop, after_eq hop,
      Operation.itemErrors_interleaving h, Operation.length_messages_interleaving h,
      Operation.recounted_interleaving hagree h]

/-- **If only one of the pipes carries summaries then their race cannot be seen**, neither in what
the collector of a backup knows nor in what that of a restore does. -/
theorem races_unseen (out err : List String) :
    (Harmless Operation.backup (out ++ err) → Operation.backup.Silent err →
      Unraced Operation.backup out err) ∧
    (Harmless Operation.restore (out ++ err) → Operation.restore.Silent err →
      Unraced Operation.restore out err) := by
  constructor <;> intro hharmless hsilent
  · exact (unraced_iff Operation.countIsField_backup hharmless).2
      (Operation.agree_of_silent hsilent)
  · exact (unraced_iff Operation.countIsField_restore hharmless).2
      (Operation.agree_of_silent hsilent)

/-- An item that fails is counted into the summary of the other pipe, whether it is reported before
that or behind it. -/
theorem races_unseen_late_error :
    let out := ["\x7b\"message_type\": \"summary\", \"files_new\": 3\x7d"]
    let err := ["\x7b\"message_type\": \"error\", \"item\": \"/x\"\x7d"]
    Harmless Operation.backup (out ++ err) ∧ Operation.backup.Silent err ∧
      Harmless Operation.restore (out ++ err) ∧ Operation.restore.Silent err ∧
      Unraced Operation.restore out err ∧
      ∃ c, Collector.start.feedAll Operation.backup (out ++ err) = .ok c ∧
        Collector.start.feedAll Operation.backup (err ++ out) = .ok c ∧
        c.summary.map (fun s => (s.filesNew, s.errorCount)) = some (3, 1) := by
  intro out err
  have hharmless {P S : Type} {op : Operation P S}
      (h : (out ++ err).all (fun line => (op.eventOfLine? line).isOk) = true) :
      Harmless op (out ++ err) := by
    intro line hline c fault hfault
    have hok := List.all_eq_true.1 h line hline
    rw [feed_eq_error.1 hfault] at hok
    cases hok
  have hsilent {P S : Type} {op : Operation P S}
      (h : err.all (fun line => (op.message? line).all (!·.isSummary)) = true) :
      op.Silent err := by
    intro line hline summary hsummary
    have hother := List.all_eq_true.1 h line hline
    rw [hsummary] at hother
    cases hother
  have hbackup : Harmless Operation.backup (out ++ err) := hharmless (by decide +kernel)
  have hrestore : Harmless Operation.restore (out ++ err) := hharmless (by decide +kernel)
  have hquiet : Operation.backup.Silent err := hsilent (by decide +kernel)
  have hquiet' : Operation.restore.Silent err := hsilent (by decide +kernel)
  obtain ⟨hunraced, hunraced'⟩ := races_unseen out err
  obtain ⟨c, hsame⟩ := hunraced hbackup hquiet
  have hfront := hsame (out ++ err) (.append out err)
  refine ⟨hbackup, hquiet, hrestore, hquiet', hunraced' hrestore hquiet', c, hfront,
    hsame (err ++ out) (Interleaving.append err out).swap, ?_⟩
  have hcounted : ((Collector.start.feedAll Operation.backup (out ++ err)).toOption.bind
      (·.summary)).map (fun s => (s.filesNew, s.errorCount)) = some (3, 1) := by decide +kernel
  rwa [hfront] at hcounted

end Collector
end BackupSteward
