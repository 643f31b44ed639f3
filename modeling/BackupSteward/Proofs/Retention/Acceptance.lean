import BackupSteward.Proofs.Outcome
import BackupSteward.Repository.Environment

/-!
# Policies that are accepted

A policy is accepted if each of its counts is -1 or more and its duration is not negative.  Accepted
policies are those that settings can describe, and all that the environment describes are among
them.
-/

namespace BackupSteward

namespace Policy

/-- What is required of a policy. -/
structure Accepted (p : Policy) : Prop where
  count : ∀ r, -1 ≤ (p.count r).amount
  within : ∀ d, p.within = some d → 0 ≤ d.micros

/-! ### Policies from settings -/

lemma neg_one_le_countSetting {settings : Fields} {r : Rule} {c : Count}
    (h : countSetting settings r = .ok c) : -1 ≤ c.amount := by
  unfold countSetting at h
  split at h
  · cases h
    simp [Count.amount]
  · rename_i v _
    cases hv : Count.ofValue? v with
    | none => simp [hv] at h
    | some c' =>
      rw [hv, Option.elim_some] at h
      exact Except.ok.inj h ▸ Count.neg_one_le_amount hv

/-- Nothing else is made from settings. -/
theorem accepted_of_ofSettings {settings : Fields} {p : Policy}
    (h : ofSettings settings = .ok p) : p.Accepted := by
  unfold ofSettings at h
  split at h
  · cases h
  obtain ⟨-, -, h⟩ := bind_eq_ok.1 h
  obtain ⟨within, -, h⟩ := bind_eq_ok.1 h
  obtain ⟨tags, -, h⟩ := bind_eq_ok.1 h
  dsimp only at h
  generalize hproblems : List.filterMap _ _ ++ _ = problems at h
  split at h
  case h_2 => cases h
  case h_1 hlast hhourly hdaily hweekly hmonthly hyearly =>
    cases h
    refine ⟨fun r => ?_, ?_⟩
    · cases r with
      | last => exact neg_one_le_countSetting hlast
      | hourly => exact neg_one_le_countSetting hhourly
      | daily => exact neg_one_le_countSetting hdaily
      | weekly => exact neg_one_le_countSetting hweekly
      | monthly => exact neg_one_le_countSetting hmonthly
      | yearly => exact neg_one_le_countSetting hyearly
    · rintro d rfl
      simpa using (List.append_eq_nil_iff.1 hproblems).2

/-- The settings that describe a policy. -/
def settings (p : Policy) : Fields :=
  Rule.all.map (fun r => (countName r, (p.count r).value)) ++
    [("keep_within", p.within.elim .null .span), ("keep_tags", .tuple p.tags)]

lemma ofValue?_value {c : Count} (h : -1 ≤ c.amount) : Count.ofValue? c.value = some c := by
  cases c with
  | number n => exact if_pos h
  | switch b => rfl

lemma countSetting_settings {p : Policy} (h : p.Accepted) (r : Rule) :
    countSetting p.settings r = .ok (p.count r) := by
  have hget : Fields.get? p.settings (countName r) = some (p.count r).value := by
    cases r <;> rfl
  rw [countSetting, hget]
  simp only [ofValue?_value (h.count r), Option.elim_some]

lemma withinSetting_settings (p : Policy) : withinSetting p.settings = .ok p.within := by
  have hget : Fields.get? p.settings "keep_within" = some (p.within.elim .null .span) := rfl
  rw [withinSetting, hget]
  cases p.within <;> rfl

/-- An accepted policy is made from its own settings. -/
theorem ofSettings_settings {p : Policy} (h : p.Accepted) : ofSettings p.settings = .ok p := by
  have hnames : (Fields.names p.settings).any (fun n => !settingNames.contains n) = false := by
    show settingNames.any (fun n => !settingNames.contains n) = false
    decide
  have htags : tagsSetting p.settings = .ok p.tags := rfl
  have hproblems : Rule.all.filterMap (fun r => problem? (countSetting p.settings r)) = [] := by
    simp [countSetting_settings h, problem?]
  simp only [ofSettings, hnames, withinSetting_settings, htags, hproblems, orFail, ok_bind]
  rcases hwithin : p.within with _ | d
  · simp only [countSetting_settings h]
    cases p
    cases hwithin
    rfl
  · have hd : ¬d.micros < 0 := Int.not_lt.2 (h.within d hwithin)
    simp only [countSetting_settings h, hd, if_false]
    cases p
    cases hwithin
    rfl

theorem accepted_iff {p : Policy} : p.Accepted ↔ ∃ settings, ofSettings settings = .ok p := by
  constructor
  · exact fun h => ⟨p.settings, ofSettings_settings h⟩
  · rintro ⟨settings, h⟩
    exact accepted_of_ofSettings h

end Policy

/-! ### Policies from the environment -/

lemma Duration.nonneg_of_ofHours? {hours : Nat} {d : Duration} (h : ofHours? hours = some d) :
    0 ≤ d.micros := by
  obtain ⟨-, hd⟩ := Option.ite_none_right_eq_some.1 h
  rw [← Option.some.inj hd]
  show 0 ≤ (hours : Int) * 3600000000
  omega

lemma Count.neg_one_le_amount_natCast (n : Nat) : -1 ≤ (number n).amount := by
  show -1 ≤ (n : Int)
  omega

/-- The environment describes accepted policies only. -/
theorem Environment.accepted_of_policy {env : Environment} {p : Policy}
    (h : env.policy = .ok p) : p.Accepted := by
  unfold policy at h
  obtain ⟨hours, -, h⟩ := bind_eq_ok.1 h
  obtain ⟨last, -, h⟩ := bind_eq_ok.1 h
  obtain ⟨hourly, -, h⟩ := bind_eq_ok.1 h
  obtain ⟨daily, -, h⟩ := bind_eq_ok.1 h
  obtain ⟨weekly, -, h⟩ := bind_eq_ok.1 h
  obtain ⟨monthly, -, h⟩ := bind_eq_ok.1 h
  obtain ⟨yearly, -, h⟩ := bind_eq_ok.1 h
  have hlimit := @Duration.nonneg_of_ofHours? hours
  -- the duration is made opaque, or the kernel computes with the microseconds of an hour
  generalize Duration.ofHours? hours = limit at h hlimit
  by_cases hzero : hours = 0
  · rw [if_pos hzero] at h
    rw [← Except.ok.inj h]
    exact ⟨fun r => by cases r <;> exact Count.neg_one_le_amount_natCast _, by rintro d ⟨⟩⟩
  · rw [if_neg hzero] at h
    rcases limit with _ | d
    · cases h
    · rw [← Except.ok.inj h]
      refine ⟨fun r => by cases r <;> exact Count.neg_one_le_amount_natCast _, fun d' hd => ?_⟩
      exact Option.some.inj hd ▸ hlimit rfl

end BackupSteward
