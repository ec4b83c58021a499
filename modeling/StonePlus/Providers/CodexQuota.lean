import StonePlus.Types

/-!
# StonePlus.Providers.CodexQuota

How `quota.ts` reads a usage snapshot of Codex after a rejection: whether it still counts as
exhausted, and when the account can be tried again.

A snapshot has three sources of a decision: the reached type, the two flags, and the meters of the
windows.  Each of them ends: by a boundary that has passed, or by the age of the snapshot.
-/

namespace StonePlus.Providers

def codexQuotaStaleAfterMs : Millis := 2 * 60 * 60 * 1000

/-- A snapshot with the decisions of the upstream.  The reached type is absent, null or a text. -/
structure AccountCodexQuotaSnapshot extends StonePlus.AccountCodexQuotaSnapshot where
  allowed : Option Bool
  limitReached : Option Bool
  rateLimitReachedType : Option (Option JsString)
  deriving DecidableEq

def codexQuotaWindows (quota : AccountCodexQuotaSnapshot) : List CodexQuotaWindow :=
  [quota.fiveHour, quota.sevenDay, quota.monthly].filterMap id

def isActiveCodexWindow (window : CodexQuotaWindow) (observedAt now : Millis) : Bool :=
  match window.resetAt with
  | some resetAt => now < resetAt
  | none => now - observedAt ≤ codexQuotaStaleAfterMs

/-- `window.resetAt !== undefined && window.resetAt <= now`. -/
def isPast (now : Millis) (window : CodexQuotaWindow) : Bool := window.resetAt.any (· ≤ now)

/-- `window.usedPercent >= 100 && isActiveCodexWindow(window, quota.observedAt, now)`. -/
def isExhaustedWindow (observedAt now : Millis) (window : CodexQuotaWindow) : Bool :=
  100 ≤ window.usedPercent && isActiveCodexWindow window observedAt now

/-- `fresh && (windows.length === 0 || (hasActiveWindow && !hasExpiredBoundary))`. -/
def isCurrent (quota : AccountCodexQuotaSnapshot) (now : Millis) : Bool :=
  let windows := codexQuotaWindows quota
  now - quota.observedAt ≤ codexQuotaStaleAfterMs &&
    (windows.isEmpty || (windows.any (isActiveCodexWindow · quota.observedAt now) &&
      !windows.any (isPast now)))

def codexQuotaIsExhausted (quota : Option AccountCodexQuotaSnapshot) (now : Millis) : Bool :=
  match quota with
  | none => false
  | some quota =>
    match quota.rateLimitReachedType with
    | some none => false
    | some (some _) => isCurrent quota now
    | none =>
      if quota.allowed.isSome || quota.limitReached.isSome then
        (quota.allowed = some false || quota.limitReached = some true) && isCurrent quota now
      else (codexQuotaWindows quota).any (isExhaustedWindow quota.observedAt now)

def codexQuotaCooldownUntil (quota : Option AccountCodexQuotaSnapshot) (now : Millis) : Option Millis :=
  match quota with
  | none => none
  | some quota =>
    if !codexQuotaIsExhausted (some quota) now then none
    else
      let windows := codexQuotaWindows quota
      let activeExhaustedWindows := windows.filter (isExhaustedWindow quota.observedAt now)
      if activeExhaustedWindows.any (·.resetAt = none) then none
      else
        match (activeExhaustedWindows.filterMap (·.resetAt)).max? with
        | some latest => some latest
        | none =>
          if windows.any (isPast now) then none
          else ((windows.filterMap (·.resetAt)).filter (now < ·)).min?

/-! ## Time passes -/

variable {quota : AccountCodexQuotaSnapshot} {window : CodexQuotaWindow} {observedAt t₁ t₂ t : Millis}

theorem isActiveCodexWindow_anti (h : t₁ ≤ t₂) (hactive : isActiveCodexWindow window observedAt t₂) :
    isActiveCodexWindow window observedAt t₁ := by
  unfold isActiveCodexWindow at *
  cases hreset : window.resetAt with
  | some resetAt =>
    simp only [hreset, decide_eq_true_eq] at *
    exact Nat.lt_of_le_of_lt h hactive
  | none =>
    simp only [hreset, decide_eq_true_eq] at *
    exact (Nat.sub_le_sub_right h observedAt).trans hactive

theorem isPast_mono (h : t₁ ≤ t₂) (hpast : isPast t₁ window) : isPast t₂ window := by
  simp only [isPast, Option.any_eq_true, decide_eq_true_eq] at *
  obtain ⟨resetAt, hreset, hle⟩ := hpast
  exact ⟨resetAt, hreset, hle.trans h⟩

theorem isExhaustedWindow_anti (h : t₁ ≤ t₂) (hwindow : isExhaustedWindow observedAt t₂ window) :
    isExhaustedWindow observedAt t₁ window := by
  simp only [isExhaustedWindow, Bool.and_eq_true] at *
  exact ⟨hwindow.1, isActiveCodexWindow_anti h hwindow.2⟩

theorem isCurrent_anti (h : t₁ ≤ t₂) (hcurrent : isCurrent quota t₂) : isCurrent quota t₁ := by
  simp only [isCurrent, Bool.and_eq_true, Bool.or_eq_true, decide_eq_true_eq, List.any_eq_true,
    Bool.not_eq_true', List.any_eq_false] at *
  refine ⟨(Nat.sub_le_sub_right h quota.observedAt).trans hcurrent.1,
    hcurrent.2.imp_right fun ⟨⟨window, hmem, hactive⟩, hpast⟩ => ?_⟩
  exact ⟨⟨window, hmem, isActiveCodexWindow_anti h hactive⟩, fun window hmem hwas =>
    hpast window hmem (isPast_mono h hwas)⟩

/-- A snapshot that counts as exhausted did so before. -/
theorem codexQuotaIsExhausted_anti {quota : Option AccountCodexQuotaSnapshot} (h : t₁ ≤ t₂)
    (hexhausted : codexQuotaIsExhausted quota t₂) : codexQuotaIsExhausted quota t₁ := by
  cases quota with
  | none => exact hexhausted
  | some quota =>
    simp only [codexQuotaIsExhausted] at *
    split at hexhausted
    · exact hexhausted
    · exact isCurrent_anti h hexhausted
    · split at hexhausted
      · rename_i hflags
        rw [if_pos hflags]
        rw [Bool.and_eq_true] at *
        exact ⟨hexhausted.1, isCurrent_anti h hexhausted.2⟩
      · rename_i hflags
        rw [if_neg hflags]
        rw [List.any_eq_true] at *
        obtain ⟨window, hmem, hwindow⟩ := hexhausted
        exact ⟨window, hmem, isExhaustedWindow_anti h hwindow⟩

/-! ## Boundaries -/

theorem isCurrent_eq_false_of_isPast (hmem : window ∈ codexQuotaWindows quota)
    (hpast : isPast t window = true) : isCurrent quota t = false := by
  have hany : (codexQuotaWindows quota).any (isPast t) = true := List.any_eq_true.mpr ⟨_, hmem, hpast⟩
  have hne : (codexQuotaWindows quota).isEmpty = false := by
    simpa using List.ne_nil_of_mem hmem
  simp [isCurrent, hany, hne]

/-- With neither a current decision nor a full meter there is no exhaustion. -/
theorem codexQuotaIsExhausted_eq_false (hcurrent : isCurrent quota t = false)
    (hmeters : ∀ window ∈ codexQuotaWindows quota,
      isExhaustedWindow quota.observedAt t window = false) :
    codexQuotaIsExhausted (some quota) t = false := by
  have hnone : (codexQuotaWindows quota).any (isExhaustedWindow quota.observedAt t) = false := by
    simpa using hmeters
  simp only [codexQuotaIsExhausted, hcurrent, hnone, Bool.and_false]
  split <;> simp

/-- A reset time that a snapshot names ends it, if no full meter is still running then. -/
theorem not_exhausted_from_reset (hmem : window ∈ codexQuotaWindows quota)
    (hreset : window.resetAt = some u)
    (hmeters : ∀ window ∈ codexQuotaWindows quota,
      isExhaustedWindow quota.observedAt u window = false) (h : u ≤ t) :
    codexQuotaIsExhausted (some quota) t = false := by
  have hpast : isPast u window = true := by simp [isPast, hreset]
  have hu := codexQuotaIsExhausted_eq_false (isCurrent_eq_false_of_isPast hmem hpast) hmeters
  exact Bool.eq_false_iff.mpr fun ht => Bool.eq_false_iff.mp hu (codexQuotaIsExhausted_anti h ht)

theorem lt_resetAt_of_isExhaustedWindow (hreset : window.resetAt = some u)
    (hwindow : isExhaustedWindow observedAt t window = true) : t < u := by
  simp only [isExhaustedWindow, isActiveCodexWindow, hreset, Bool.and_eq_true,
    decide_eq_true_eq] at hwindow
  exact hwindow.2

/-- The account is tried again later than now, and the snapshot does not count as exhausted then
or at any later time. -/
theorem codexQuotaCooldownUntil_spec (h : codexQuotaCooldownUntil (some quota) t = some u) :
    t < u ∧ ∀ t' ≥ u, codexQuotaIsExhausted (some quota) t' = false := by
  simp only [codexQuotaCooldownUntil] at h
  split at h
  · contradiction
  split at h
  · contradiction
  rename_i hknown
  simp only [List.any_eq_true, List.mem_filter, decide_eq_true_eq, not_exists, not_and,
    and_imp] at hknown
  have hresets : ∀ r, r ∈ ((codexQuotaWindows quota).filter
      (isExhaustedWindow quota.observedAt t)).filterMap (·.resetAt) ↔
        ∃ window ∈ codexQuotaWindows quota,
          isExhaustedWindow quota.observedAt t window = true ∧ window.resetAt = some r := by
    simp [and_assoc]
  split at h
  · -- All full meters have a reset time, and this is the latest one.
    rename_i latest hlatest
    obtain rfl := Option.some.inj h
    obtain ⟨hin, hmax⟩ := List.max?_eq_some_iff.mp hlatest
    obtain ⟨window, hmem, hwindow, hreset⟩ := (hresets _).mp hin
    have hlt := lt_resetAt_of_isExhaustedWindow hreset hwindow
    refine ⟨hlt, fun t' => not_exhausted_from_reset hmem hreset fun other hother => ?_⟩
    refine Bool.eq_false_iff.mpr fun hfull => ?_
    have hwas := isExhaustedWindow_anti hlt.le hfull
    cases hr : other.resetAt with
    | none => exact hknown other hother hwas hr
    | some r =>
      have hle : r ≤ latest := hmax r ((hresets r).mpr ⟨other, hother, hwas, hr⟩)
      exact absurd (lt_resetAt_of_isExhaustedWindow hr hfull) (Nat.not_lt.mpr hle)
  · -- No meter is full, and this is the first reset time to come.
    rename_i hnone
    split at h
    · contradiction
    obtain ⟨hin, -⟩ := List.min?_eq_some_iff.mp h
    simp only [List.mem_filter, List.mem_filterMap, decide_eq_true_eq] at hin
    obtain ⟨⟨window, hmem, hreset⟩, hlt⟩ := hin
    refine ⟨hlt, fun t' => not_exhausted_from_reset hmem hreset fun other hother => ?_⟩
    refine Bool.eq_false_iff.mpr fun hfull => ?_
    have hwas := isExhaustedWindow_anti hlt.le hfull
    cases hr : other.resetAt with
    | none => exact hknown other hother hwas hr
    | some r =>
      have hempty := List.max?_eq_none_iff.mp hnone
      exact List.ne_nil_of_mem ((hresets r).mpr ⟨other, hother, hwas, hr⟩) hempty

/-- A snapshot that is stale, with all its reset times past, does not count as exhausted. -/
theorem not_exhausted_of_stale (hstale : quota.observedAt + codexQuotaStaleAfterMs < t)
    (hpast : ∀ window ∈ codexQuotaWindows quota, ∀ resetAt ∈ window.resetAt, resetAt < t) :
    codexQuotaIsExhausted (some quota) t = false := by
  have hold : ¬ t - quota.observedAt ≤ codexQuotaStaleAfterMs :=
    Nat.not_le.mpr (Nat.lt_sub_of_add_lt (by rwa [Nat.add_comm]))
  refine codexQuotaIsExhausted_eq_false (by simp [isCurrent, hold]) fun window hmem => ?_
  cases hr : window.resetAt with
  | none => simp [isExhaustedWindow, isActiveCodexWindow, hr, hold]
  | some r =>
    have hlt := hpast window hmem r hr
    simp [isExhaustedWindow, isActiveCodexWindow, hr, hlt.le]

/-! ## Every exhaustion ends -/

theorem codexQuota_ends (quota : Option AccountCodexQuotaSnapshot) :
    (∀ t₁ t₂, t₁ ≤ t₂ → codexQuotaIsExhausted quota t₂ = true →
      codexQuotaIsExhausted quota t₁ = true) ∧
    (∀ t u, codexQuotaCooldownUntil quota t = some u →
      t < u ∧ ∀ t' ≥ u, codexQuotaIsExhausted quota t' = false) ∧
    ∀ t, (∀ q ∈ quota, q.observedAt + codexQuotaStaleAfterMs < t ∧
        ∀ window ∈ codexQuotaWindows q, ∀ resetAt ∈ window.resetAt, resetAt < t) →
      codexQuotaIsExhausted quota t = false := by
  refine ⟨fun t₁ t₂ => codexQuotaIsExhausted_anti, ?_, ?_⟩
  · cases quota with
    | none => exact fun t u h => nomatch h
    | some quota => exact fun t u => codexQuotaCooldownUntil_spec
  · cases quota with
    | none => exact fun _ _ => rfl
    | some quota => exact fun t h => not_exhausted_of_stale (h quota rfl).1 (h quota rfl).2

end StonePlus.Providers
