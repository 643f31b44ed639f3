import BackupSteward.Proofs.Repository.Forget

/-!
# Operations in related sessions

A relation between sessions that is kept by notices, by text and by the calls of two repositories is
kept by all their operations, and these come to the same.  What the relation leaves open is what an
operation does not depend on: the log so far, or a variable of its processes.
-/

namespace BackupSteward.Repository

open BackupSteward.Engine

/-- Two repositories that do the same in related sessions and keep these related. -/
structure Corresponds (R : Session → Session → Prop) (r r' : Repository) : Prop where
  label : r'.label = r.label
  note {s t : Session} : R s t → ∀ n, R (s.note [n]) (t.note [n])
  write {s t : Session} : R s t → ∀ text, R (s.write text) (t.write text)
  call {σ : Type} {s t : Session} : R s t → ∀ subcommand arguments deadline (handler : Handler σ)
    (state : σ),
    let x := (r.call subcommand arguments deadline).run handler state s
    let y := (r'.call subcommand arguments deadline).run handler state t
    y.1 = x.1 ∧ y.2.1 = x.2.1 ∧ R x.2.2 y.2.2

/-- In the same surroundings a repository does the same. -/
lemma corresponds_same (r : Repository) : Corresponds Session.Same r r where
  label := rfl
  note h _ := { h with }
  write h _ := { h with }
  call h _ _ _ handler state := Call.same_run _ handler state h

section

variable {R : Session → Session → Prop} {r r' : Repository} (h : Corresponds R r r')

include h

lemma related_note (n : Notice) : Act.Related R (Act.note n) (Act.note n) :=
  fun _ _ hst => ⟨rfl, h.note hst n⟩

lemma related_write (text : String) : Act.Related R (Act.write text) (Act.write text) :=
  fun _ _ hst => ⟨rfl, h.write hst text⟩

lemma related_call {σ : Type} (subcommand : String) (arguments : List Value) (deadline : Value)
    (handler : Handler σ) (state : σ) :
    Act.Related R (Act.call (r.call subcommand arguments deadline) handler state)
      (Act.call (r'.call subcommand arguments deadline) handler state) := by
  intro s t hst
  obtain ⟨houtcome, hstate, hafter⟩ := h.call hst subcommand arguments deadline handler state
  rw [Act.within_call, Act.within_call, houtcome, hstate]
  exact ⟨rfl, hafter⟩

lemma related_collect (subcommand : String) (arguments : List Value) (deadline : Value) :
    Act.Related R (r.collect subcommand arguments deadline)
      (r'.collect subcommand arguments deadline) :=
  (related_call h _ _ _ _ _).bind fun _ => Act.related_pure _

lemma related_forwardOutput (subcommand : String) (arguments : List Value) (takesOutput : Bool)
    (deadline : Value) : Act.Related R (r.forwardOutput subcommand arguments takesOutput deadline)
      (r'.forwardOutput subcommand arguments takesOutput deadline) := by
  intro s t hst
  obtain ⟨houtcome, hstate, hafter⟩ := h.call hst subcommand arguments deadline
    (Handler.forwarding takesOutput) ""
  rw [within_forwardOutput, within_forwardOutput]
  dsimp only
  rw [houtcome, hstate]
  exact ⟨rfl, h.write hafter _⟩

lemma related_init (deadline : Value) : Act.Related R (r.init deadline) (r'.init deadline) := by
  unfold init
  rw [h.label]
  exact (related_call h _ _ _ _ _).bind fun _ => related_note h _

lemma related_snapshots (options : List Step) (deadline : Value) :
    Act.Related R (r.snapshots options deadline) (r'.snapshots options deadline) := by
  unfold snapshots
  rw [h.label]
  refine (Act.related_lift _).bind fun arguments => ?_
  refine (related_collect h _ _ _).bind fun lines => ?_
  refine (Act.related_lift _).bind fun found => ?_
  exact (related_note h _).bind fun _ => Act.related_pure found

lemma related_listDirectory (snapshotId path : String) (deadline : Value) :
    Act.Related R (r.listDirectory snapshotId path deadline)
      (r'.listDirectory snapshotId path deadline) := by
  unfold listDirectory
  rw [h.label]
  refine (Act.related_lift _).bind fun _ => ?_
  refine (related_collect h _ _ _).bind fun lines => ?_
  refine (Act.related_lift _).bind fun directory => ?_
  exact (related_note h _).bind fun _ => Act.related_pure directory

lemma related_prune (takesOutput : Bool) (deadline : Value) :
    Act.Related R (r.prune takesOutput deadline) (r'.prune takesOutput deadline) := by
  unfold prune
  rw [h.label]
  exact (related_forwardOutput h _ _ _ _).bind fun _ => related_note h _

lemma related_carryOut (takesOutput : Bool) (deadline : Value) (result : Retention) :
    Act.Related R (r.carryOut takesOutput deadline result)
      (r'.carryOut takesOutput deadline result) := by
  have hprune := (related_prune h takesOutput deadline).bind fun _ => Act.related_pure result
  unfold carryOut
  rw [h.label]
  split
  · split
    · exact (related_write h _).bind fun _ => hprune
    · exact hprune
  · refine (related_forwardOutput h _ _ _ _).bind fun _ => ?_
    exact (related_note h _).bind fun _ => Act.related_pure result

lemma related_forget (policy : Policy) (takesOutput : Bool) (options : List Step)
    (deadline : Value) : Act.Related R (r.forget policy takesOutput options deadline)
      (r'.forget policy takesOutput options deadline) := by
  rw [forget_eq, forget_eq, h.label]
  refine (related_snapshots h _ _).bind fun found => ?_
  refine (Act.related_lift _).bind fun result => ?_
  exact (related_note h _).bind fun _ => related_carryOut h _ _ result

lemma related_unlock (removeAll deadline : Value) :
    Act.Related R (r.unlock removeAll deadline) (r'.unlock removeAll deadline) := by
  unfold unlock
  rw [h.label]
  exact (related_call h _ _ _ _ _).bind fun _ => related_note h _

lemma related_statistics (mode : String) (deadline : Value) :
    Act.Related R (r.statistics mode deadline) (r'.statistics mode deadline) :=
  (related_collect h _ _ _).bind fun _ => Act.related_lift _

end

end BackupSteward.Repository
