import StonePlus.Lib.Greedy
import StonePlus.Scheduler.System

/-!
# StonePlus.Scheduler.SmoothWeighted

Smooth weighted round robin is exact.

One call is a round of `Lib.Greedy`: the scan raises each candidate's score by its weight
and settles on one whose score is greatest (`smoothWeightedScan_spec`), which then pays
the total.  What is left to see is that the scores survive from call to call, so that a
run of calls is a run of rounds.
-/

namespace StonePlus.Scheduler

/-! ## Maps built from a list of entries -/

theorem get?_foldl_set {ν : Type} {entries : List (JsString × ν)} (m : JsMap JsString ν)
    (hnodup : (entries.map Prod.fst).Nodup) {value : ν} (h : (key, value) ∈ entries) :
    (entries.foldl (fun m e => m.set e.1 e.2) m).get? key = some value := by
  induction entries generalizing m with
  | nil => cases h
  | cons e es ih =>
      rw [List.map_cons, List.nodup_cons] at hnodup
      rcases List.mem_cons.mp h with rfl | hmem
      · -- the entries that follow have other keys
        have hkeep : ∀ (es : List (JsString × ν)) (m : JsMap JsString ν), key ∉ es.map Prod.fst →
            (es.foldl (fun m e => m.set e.1 e.2) m).get? key = m.get? key := by
          intro es
          induction es with
          | nil => exact fun _ _ => rfl
          | cons e es ihes =>
              intro m hnot
              rw [List.map_cons, List.mem_cons, not_or] at hnot
              rw [List.foldl_cons, ihes _ hnot.2, JsMap.get?_set_of_ne _ _ hnot.1]
        rw [List.foldl_cons, hkeep es _ hnodup.1, JsMap.get?_set_self]
      · exact ih _ hnodup.2 hmem

/-- With distinct keys a map has the entries it is built from. -/
theorem get?_mapOf {ν : Type} {entries : List (JsString × ν)}
    (hnodup : (entries.map Prod.fst).Nodup) {value : ν} :
    (mapOf entries).get? key = some value ↔ (key, value) ∈ entries :=
  ⟨mem_of_get?_mapOf, get?_foldl_set ∅ hnodup⟩

theorem entries_foldl_set {ν : Type} {entries : List (JsString × ν)} (m : JsMap JsString ν)
    (hnodup : (entries.map Prod.fst).Nodup) (hnew : ∀ e ∈ entries, e.1 ∉ m.keys) :
    (entries.foldl (fun m e => m.set e.1 e.2) m).entries = m.entries ++ entries := by
  induction entries generalizing m with
  | nil => simp
  | cons e es ih =>
      rw [List.map_cons, List.nodup_cons] at hnodup
      have hset : (m.set e.1 e.2).entries = m.entries ++ [e] :=
        JsMap.setEntries_of_not_mem (hnew e List.mem_cons_self)
      rw [List.foldl_cons, ih _ hnodup.2, hset, List.append_assoc, List.singleton_append]
      intro e' he' hmem
      rw [JsMap.keys, hset, List.map_append, List.mem_append] at hmem
      rcases hmem with hmem | hmem
      · exact hnew e' (List.mem_cons_of_mem e he') hmem
      · have heq : e'.1 = e.1 := by simpa using hmem
        exact hnodup.1 (heq ▸ List.mem_map_of_mem he')

theorem entries_mapOf {ν : Type} {entries : List (JsString × ν)}
    (hnodup : (entries.map Prod.fst).Nodup) : (mapOf entries).entries = entries :=
  entries_foldl_set ∅ hnodup fun _ _ => List.not_mem_nil

/-! ## The order of the candidates -/

/-- The members of an aggregate pool in their order. -/
theorem perm_orderedAccountIds (pool : Pool) :
    (getAggregatePoolIndex pool).orderedAccountIds.Perm (pool.members.map PoolMember.accountId) := by
  have hsort := (List.perm_insertionSort (fun (a b : Rat × Nat × PoolMember) =>
    a.1 < b.1 ∨ (a.1 = b.1 ∧ a.2.1 ≤ b.2.1))
      (pool.members.zipIdx.map fun m => (((m.1.order.getD m.2 : Rat)), m.2, m.1)))
  have hmap := (hsort.map fun entry => entry.2.2).map PoolMember.accountId
  refine hmap.trans (List.Perm.of_eq ?_)
  rw [List.map_map, List.map_map]
  change pool.members.zipIdx.map (PoolMember.accountId ∘ Prod.fst) = _
  rw [← List.map_map, List.zipIdx_map_fst]

/-- The candidates are ordered, each stays once. -/
theorem perm_orderedCandidates {env : Env} {candidates : List Account}
    (hmembers : (pool.members.map PoolMember.accountId).Nodup)
    (hids : (candidates.map Account.id).Nodup) :
    (orderedCandidates env (aggregateIndex pool) candidates).Perm candidates := by
  unfold aggregateIndex
  split
  · set index := getAggregatePoolIndex pool with hindex
    have hordered : index.orderedAccountIds.Nodup := (perm_orderedAccountIds pool).nodup_iff.mpr hmembers
    have hby : ∀ id account, (mapOf (candidates.map fun account => (account.id, account))).get? id =
        some account ↔ account ∈ candidates ∧ account.id = id := by
      intro id account
      rw [get?_mapOf (by simpa [Function.comp_def] using hids)]
      simp only [List.mem_map, Prod.mk.injEq]
      grind
    have hknown : ∀ id, index.orderByAccountId.has id = true ↔ id ∈ index.orderedAccountIds := by
      intro id
      have hentries : (index.orderedAccountIds.zipIdx.map Prod.fst).Nodup := by
        simpa using hordered
      rw [JsMap.has_eq_true_iff, JsMap.keys]
      change id ∈ (mapOf index.orderedAccountIds.zipIdx).entries.map Prod.fst ↔ _
      rw [entries_mapOf hentries, List.zipIdx_map_fst]
    change (orderAggregateCandidates env index candidates).Perm candidates
    have hcandidates : candidates.Nodup := List.Nodup.of_map _ hids
    refine (List.perm_ext_iff_of_nodup ?_ hcandidates).mpr fun account => ?_
    · refine List.nodup_append'.mpr ⟨?_, ?_, ?_⟩
      · refine List.Nodup.filterMap ?_ hordered
        intro id id' account h h'
        rw [(hby id account).mp h |>.2.symm, (hby id' account).mp h' |>.2.symm]
      · exact (List.perm_insertionSort _ _).nodup_iff.mpr (hcandidates.filter _)
      · intro account hleft hright
        obtain ⟨id, hid, hget⟩ := List.mem_filterMap.mp hleft
        rw [List.mem_insertionSort, List.mem_filter] at hright
        have := (hknown account.id).mpr (((hby id account).mp hget).2 ▸ hid)
        simp [this] at hright
    · simp only [orderAggregateCandidates, List.mem_append, List.mem_filterMap,
        List.mem_insertionSort, List.mem_filter, hby]
      have := hknown account.id
      grind
  · exact List.Perm.refl _

namespace PoolScheduler

/-! ## One call -/

/-- What a scan of distinct candidates finds. -/
structure ScanFinds (weight : Account → Rat) (current : JsMap JsString Rat) (ordered : List Account)
    (scan : SmoothWeightedScan) : Prop where
  total : scan.totalWeight = (ordered.map weight).sum
  scored : ∀ account ∈ ordered,
    scan.current.getD account.id 0 = current.getD account.id 0 + weight account
  kept : ∀ id, id ∉ ordered.map Account.id → scan.current.getD id 0 = current.getD id 0
  none_iff : scan.selected = none ↔ ordered = []
  selected : ∀ account score, scan.selected = some (account, score) → account ∈ ordered ∧
    score = current.getD account.id 0 + weight account ∧
    ∀ other ∈ ordered, current.getD other.id 0 + weight other ≤ score

/-- A scan raises every score and finds a greatest one. -/
theorem smoothWeightedScan_spec (hids : (ordered.map Account.id).Nodup) :
    ScanFinds weight current ordered (smoothWeightedScan weight current ordered) := by
  induction ordered using List.reverseRecOn with
  | nil => exact ⟨rfl, by simp, fun _ _ => rfl, by simp [smoothWeightedScan], by simp [smoothWeightedScan]⟩
  | append_singleton ordered account ih =>
      rw [List.map_append, List.nodup_append'] at hids
      have hnot : account.id ∉ ordered.map Account.id := by
        intro h
        exact hids.2.2 h (by simp)
      have ih := ih hids.1
      rw [smoothWeightedScan, List.foldl_append, ← smoothWeightedScan, List.foldl_cons,
        List.foldl_nil]
      generalize smoothWeightedScan weight current ordered = scan at ih
      have hscore : scan.current.getD account.id 0 = current.getD account.id 0 :=
        ih.kept account.id hnot
      refine ⟨?_, ?_, ?_, ?_, ?_⟩
      · simp [ih.total]
      · intro other hother
        rcases List.mem_append.mp hother with hother | hother
        · have hne : other.id ≠ account.id :=
            fun heq => hnot (heq ▸ List.mem_map_of_mem hother)
          simp only [JsMap.getD_set, if_neg hne]
          exact ih.scored other hother
        · obtain rfl := List.mem_singleton.mp hother
          simp [JsMap.getD_set, hscore]
      · intro id hid
        rw [List.map_append, List.mem_append, not_or] at hid
        have hne : id ≠ account.id := by simpa using hid.2
        simp only [JsMap.getD_set, if_neg hne]
        exact ih.kept id hid.1
      · simp only [List.append_eq_nil_iff, List.cons_ne_self, and_false, iff_false]
        split
        · simp
        · split <;> simp
      · intro best score hbest
        simp only [hscore] at hbest
        split at hbest
        · next hnone =>
          cases hbest
          have hnil := ih.none_iff.mp hnone
          simp [hnil]
        · next found foundScore hsome =>
          obtain ⟨hmem, hfound, hgreatest⟩ := ih.selected _ _ hsome
          split at hbest
          · next hlt =>
            cases hbest
            refine ⟨by simp, rfl, fun other hother => ?_⟩
            rcases List.mem_append.mp hother with hother | hother
            · exact (hgreatest other hother).trans hlt.le
            · rw [List.mem_singleton.mp hother]
          · next hle =>
            cases hbest
            refine ⟨List.mem_append_left _ hmem, hfound, fun other hother => ?_⟩
            rcases List.mem_append.mp hother with hother | hother
            · exact hgreatest other hother
            · rw [List.mem_singleton.mp hother]
              exact not_lt.mp hle

/-- What a candidate of a pool weighs when no quota presses. -/
def configuredWeight (pool : Pool) (account : Account) : Rat :=
  match aggregateIndex pool with
  | some index => index.weightByAccountId.getD account.id 1
  | none => account.weight

/-- The score that an account has accumulated in a pool. -/
def smoothScore (s : PoolScheduler) (pool : Pool) (account : Account) : Rat :=
  ((s.smoothWeighted.get? pool.id).map fun state => state.current.getD account.id 0).getD 0

/-- Nothing has been accumulated in a pool. -/
def FreshlyReset (s : PoolScheduler) (pool : Pool) : Prop :=
  ∀ state, s.smoothWeighted.get? pool.id = some state → state.current = ∅

/-- The accounts and the pool of a run of calls: distinct, of positive natural weights. -/
structure SmoothSetting (pool : Pool) (candidates configuredAccounts : List Account)
    (weight : Account → ℕ) (nows : ℕ → Millis) : Prop where
  candidates_ne_nil : candidates ≠ []
  nodup_candidates : (candidates.map Account.id).Nodup
  nodup_configured : (configuredAccounts.map Account.id).Nodup
  nodup_members : (pool.members.map PoolMember.accountId).Nodup
  weight_pos : ∀ account ∈ candidates, 0 < weight account
  weight_eq : ∀ account ∈ candidates, configuredWeight pool account = weight account
  no_pressure : ∀ k, ∀ account, account ∈ candidates ∨ account ∈ configuredAccounts →
    quotaPressure account (nows k) = 0

/-- The configuration that a run of calls keeps. -/
def smoothConfiguration (pool : Pool) (configuredAccounts : List Account) : JsMap JsString Rat :=
  match aggregateIndex pool with
  | some index => index.smoothConfiguration
  | none => mapOf (configuredAccounts.map fun account => (account.id, max 0 account.weight))

/-- The scores are nothing yet, or of the configuration the pool still has. -/
def SmoothConsistent (s : PoolScheduler) (pool : Pool) (configuredAccounts : List Account) : Prop :=
  ∀ state, s.smoothWeighted.get? pool.id = some state →
    state.current = ∅ ∨ state.configuration = smoothConfiguration pool configuredAccounts

section Call

variable {env : Env} {s : PoolScheduler} {pool : Pool} {candidates configuredAccounts : List Account}
  {weight : Account → ℕ} {nows : ℕ → Millis}

theorem effectiveWeight_of_no_pressure (h : quotaPressure account now = 0) :
    effectiveWeight account now = max 0 account.weight := by
  rw [effectiveWeight, h]
  norm_num

/-- A call starts from the scores that are stored, and stores the configuration it has. -/
theorem smoothWeightedState_spec
    (h : SmoothSetting pool candidates configuredAccounts weight nows)
    (hs : s.SmoothConsistent pool configuredAccounts) (k : ℕ) :
    (s.smoothWeightedState pool (aggregateIndex pool) configuredAccounts (nows k)).configuration =
        smoothConfiguration pool configuredAccounts ∧
      ∀ account : Account,
        (s.smoothWeightedState pool (aggregateIndex pool) configuredAccounts (nows k)).current.getD
          account.id 0 = s.smoothScore pool account := by
  have hconfigured : (configuredAccounts.map fun account =>
      (account.id, effectiveWeight account (nows k))) =
      configuredAccounts.map fun account => (account.id, max 0 account.weight) := by
    refine List.map_congr_left fun account haccount => ?_
    rw [effectiveWeight_of_no_pressure (h.no_pressure k account (.inr haccount))]
  have hnodup : ((configuredAccounts.map fun account =>
      (account.id, max 0 account.weight)).map Prod.fst).Nodup := by
    simpa [Function.comp_def] using h.nodup_configured
  have hs' := hs
  unfold SmoothConsistent smoothConfiguration at hs'
  unfold smoothWeightedState smoothScore smoothConfiguration
  simp only [hconfigured]
  generalize (configuredAccounts.map fun account => (account.id, max 0 account.weight)) =
    configured at hnodup hs'
  have hentries : ∀ configuration : JsMap JsString Rat,
      configuration.entries = configured ↔ configuration = mapOf configured := by
    intro configuration
    constructor
    · exact fun heq => JsMap.ext (heq.trans (entries_mapOf hnodup).symm)
    · rintro rfl
      exact entries_mapOf hnodup
  simp only [hentries]
  cases hget : s.smoothWeighted.get? pool.id with
  | none => cases hindex : aggregateIndex pool <;> simp
  | some state =>
      have hs' := hs' state hget
      cases hindex : aggregateIndex pool with
      | none =>
          simp only [hindex] at hs'
          by_cases hsame : state.configuration = mapOf configured
          · simp [hsame]
          · simp [hsame, hs'.resolve_right hsame]
      | some index =>
          simp only [hindex] at hs'
          by_cases hsame : state.configuration = index.smoothConfiguration
          · simp [hsame]
          · simp [hsame, hs'.resolve_right hsame]

/-- What a call does once its candidates are in order. -/
theorem round_of_scan {weightFor : Account → Rat} {state : SmoothWeightedState}
    (h : SmoothSetting pool candidates configuredAccounts weight nows)
    (hperm : ordered.Perm candidates)
    (hconfiguration : state.configuration = smoothConfiguration pool configuredAccounts)
    (hcurrent : ∀ account : Account, state.current.getD account.id 0 = s.smoothScore pool account)
    (hweight : ∀ account ∈ ordered, weightFor account = weight account) : ∃ selected score,
      (smoothWeightedScan
        (fun account => if ordered.any fun a => decide (0 < weightFor a) then weightFor account else 1)
        state.current ordered).selected = some (selected, score) ∧
      ∀ scan, scan = smoothWeightedScan
        (fun account => if ordered.any fun a => decide (0 < weightFor a) then weightFor account else 1)
        state.current ordered →
      ∀ s' : PoolScheduler, s' = { s with
        smoothWeighted := s.smoothWeighted.set pool.id
          { state with current := scan.current.set selected.id (score - scan.totalWeight) } } →
      Lib.Round candidates.toFinset weight (s.smoothScore pool) (s'.smoothScore pool) selected ∧
        (∀ account, account.id ∉ candidates.map Account.id →
          s'.smoothScore pool account = s.smoothScore pool account) ∧
        s'.SmoothConsistent pool configuredAccounts := by
  have hne : ordered ≠ [] := by
    rintro rfl
    exact h.candidates_ne_nil (by simpa using hperm.symm.eq_nil)
  have hpositive : (ordered.any fun a => decide (0 < weightFor a)) = true := by
    obtain ⟨account, haccount⟩ := List.exists_mem_of_ne_nil _ hne
    refine List.any_eq_true.mpr ⟨account, haccount, decide_eq_true ?_⟩
    rw [hweight account haccount]
    exact_mod_cast h.weight_pos account (hperm.mem_iff.mp haccount)
  simp only [hpositive, if_true]
  have hids : (ordered.map Account.id).Nodup := (hperm.map _).nodup_iff.mpr h.nodup_candidates
  have hscan : ScanFinds weightFor state.current ordered _ := smoothWeightedScan_spec hids
  generalize hscanned : smoothWeightedScan weightFor state.current ordered = scan at hscan
  obtain ⟨⟨selected, score⟩, hselected⟩ :=
    Option.ne_none_iff_exists'.mp fun hnone => hne (hscan.none_iff.mp hnone)
  obtain ⟨hmem, hscore, hgreatest⟩ := hscan.selected _ _ hselected
  have htotal : scan.totalWeight = (∑ account ∈ candidates.toFinset, weight account : ℕ) := by
    rw [hscan.total, List.map_congr_left hweight, (hperm.map _).sum_eq,
      ← List.sum_toFinset _ (List.Nodup.of_map _ h.nodup_candidates)]
    push_cast
    rfl
  refine ⟨selected, score, hselected, ?_⟩
  rintro _ rfl s' rfl
  refine ⟨⟨?_, ?_, ?_⟩, ?_, ?_⟩
  · exact List.mem_toFinset.mpr (hperm.mem_iff.mp hmem)
  · intro account haccount
    have haccount := hperm.mem_iff.mpr (List.mem_toFinset.mp haccount)
    have := hgreatest account haccount
    rwa [hscore, hweight account haccount, hweight selected hmem, hcurrent, hcurrent] at this
  · intro account haccount
    have haccount := hperm.mem_iff.mpr (List.mem_toFinset.mp haccount)
    simp only [smoothScore, JsMap.get?_set_self, Option.map_some, Option.getD_some, JsMap.getD_set]
    by_cases heq : account = selected
    · rw [if_pos (by rw [heq]), if_pos heq, hscore, htotal, hcurrent, hweight selected hmem, heq]
      rfl
    · have hid : account.id ≠ selected.id := by
        intro hid
        exact heq (List.inj_on_of_nodup_map hids haccount hmem hid)
      rw [if_neg hid, if_neg heq, hscan.scored account haccount, hcurrent, hweight account haccount]
      simp [smoothScore]
  · intro account hnot
    rw [← (hperm.map Account.id).mem_iff] at hnot
    have hid : account.id ≠ selected.id := fun hid => hnot (hid ▸ List.mem_map_of_mem hmem)
    rw [← hcurrent, ← hscan.kept account.id hnot]
    simp [smoothScore, JsMap.getD_set, hid]
  · intro stored hstored
    rw [JsMap.get?_set_self, Option.some.injEq] at hstored
    rw [← hstored]
    exact .inr hconfiguration

/-- **One call is a round.** -/
theorem pickSmoothWeighted_round
    (h : SmoothSetting pool candidates configuredAccounts weight nows)
    (hs : s.SmoothConsistent pool configuredAccounts) (k : ℕ) :
    ∃ selected,
      (s.pickSmoothWeighted env pool candidates configuredAccounts (nows k)).1 = some selected ∧
      Lib.Round candidates.toFinset weight (s.smoothScore pool)
        ((s.pickSmoothWeighted env pool candidates configuredAccounts (nows k)).2.smoothScore pool)
        selected ∧
      (∀ account, account.id ∉ candidates.map Account.id →
        (s.pickSmoothWeighted env pool candidates configuredAccounts (nows k)).2.smoothScore pool
          account = s.smoothScore pool account) ∧
      (s.pickSmoothWeighted env pool candidates configuredAccounts (nows k)).2.SmoothConsistent pool
        configuredAccounts := by
  have hperm : (orderedCandidates env (aggregateIndex pool) candidates).Perm candidates :=
    perm_orderedCandidates h.nodup_members h.nodup_candidates
  obtain ⟨hconfiguration, hcurrent⟩ := smoothWeightedState_spec h hs k
  unfold pickSmoothWeighted
  cases hindex : aggregateIndex pool with
  | some index =>
      rw [hindex] at hperm hconfiguration hcurrent
      have hweight : ∀ account ∈ orderedCandidates env (some index) candidates,
          index.weightByAccountId.getD account.id 1 = (weight account : ℚ) := by
        intro account haccount
        have heq := h.weight_eq account (hperm.mem_iff.mp haccount)
        simpa only [configuredWeight, hindex] using heq
      obtain ⟨selected, score, hselected, hround⟩ :=
        round_of_scan h hperm hconfiguration hcurrent hweight
      simp only [hselected]
      exact ⟨selected, rfl, hround _ rfl _ rfl⟩
  | none =>
      rw [hindex] at hperm hconfiguration hcurrent
      have hweight : ∀ account ∈ orderedCandidates env none candidates,
          effectiveWeight account (nows k) = (weight account : ℚ) := by
        intro account haccount
        have hmem := hperm.mem_iff.mp haccount
        have heq := h.weight_eq account hmem
        simp only [configuredWeight, hindex] at heq
        rw [effectiveWeight_of_no_pressure (h.no_pressure k account (.inl hmem)), heq]
        exact max_eq_right (Nat.cast_nonneg _)
      obtain ⟨selected, score, hselected, hround⟩ :=
        round_of_scan h hperm hconfiguration hcurrent hweight
      simp only [hselected]
      exact ⟨selected, rfl, hround _ rfl _ rfl⟩

/-- What a scan settles on depends on the scores and weights of the candidates only. -/
theorem selected_congr {weight : Account → Rat} (hids : (ordered.map Account.id).Nodup)
    (hcurrent : ∀ account ∈ ordered, current.getD account.id 0 = current'.getD account.id 0)
    (hweight : ∀ account ∈ ordered, weight account = weight' account) :
    (smoothWeightedScan weight current ordered).selected =
      (smoothWeightedScan weight' current' ordered).selected := by
  induction ordered using List.reverseRecOn with
  | nil => rfl
  | append_singleton ordered account ih =>
      rw [List.map_append, List.nodup_append'] at hids
      have hnot : account.id ∉ ordered.map Account.id := fun h => hids.2.2 h (by simp)
      have hmem : account ∈ ordered ++ [account] := by simp
      have hscore : (smoothWeightedScan weight current ordered).current.getD account.id 0 +
          weight account =
          (smoothWeightedScan weight' current' ordered).current.getD account.id 0 +
            weight' account := by
        have hkept : ScanFinds weight current ordered _ := smoothWeightedScan_spec hids.1
        have hkept' : ScanFinds weight' current' ordered _ := smoothWeightedScan_spec hids.1
        rw [hkept.kept _ hnot, hkept'.kept _ hnot, hcurrent account hmem, hweight account hmem]
      have hselected := ih hids.1 (fun a ha => hcurrent a (List.mem_append_left _ ha))
        fun a ha => hweight a (List.mem_append_left _ ha)
      unfold smoothWeightedScan at hscore hselected ⊢
      simp only [List.foldl_append, List.foldl_cons, List.foldl_nil, hscore, hselected]

/-- Equal scores lead to the same pick. -/
theorem pickSmoothWeighted_congr {s' : PoolScheduler}
    (h : SmoothSetting pool candidates configuredAccounts weight nows)
    (hs : s.SmoothConsistent pool configuredAccounts)
    (hs' : s'.SmoothConsistent pool configuredAccounts) (k k' : ℕ)
    (hscore : ∀ account ∈ candidates, s.smoothScore pool account = s'.smoothScore pool account) :
    (s.pickSmoothWeighted env pool candidates configuredAccounts (nows k)).1 =
      (s'.pickSmoothWeighted env pool candidates configuredAccounts (nows k')).1 := by
  have hperm : (orderedCandidates env (aggregateIndex pool) candidates).Perm candidates :=
    perm_orderedCandidates h.nodup_members h.nodup_candidates
  have hids := (hperm.map Account.id).nodup_iff.mpr h.nodup_candidates
  have hcurrent := (smoothWeightedState_spec h hs k).2
  have hcurrent' := (smoothWeightedState_spec h hs' k').2
  have hsame : ∀ account ∈ candidates, effectiveWeight account (nows k) =
      effectiveWeight account (nows k') := by
    intro account haccount
    rw [effectiveWeight_of_no_pressure (h.no_pressure k account (.inl haccount)),
      effectiveWeight_of_no_pressure (h.no_pressure k' account (.inl haccount))]
  have hpick : ∀ (weightFor weightFor' : Account → Rat),
      (∀ account ∈ candidates, weightFor account = weightFor' account) →
      (smoothWeightedScan (fun account =>
          if (orderedCandidates env (aggregateIndex pool) candidates).any fun a =>
            decide (0 < weightFor a) then weightFor account else 1)
        (s.smoothWeightedState pool (aggregateIndex pool) configuredAccounts (nows k)).current
        (orderedCandidates env (aggregateIndex pool) candidates)).selected =
      (smoothWeightedScan (fun account =>
          if (orderedCandidates env (aggregateIndex pool) candidates).any fun a =>
            decide (0 < weightFor' a) then weightFor' account else 1)
        (s'.smoothWeightedState pool (aggregateIndex pool) configuredAccounts (nows k')).current
        (orderedCandidates env (aggregateIndex pool) candidates)).selected := by
    intro weightFor weightFor' hweights
    have hany : ((orderedCandidates env (aggregateIndex pool) candidates).any fun a =>
        decide (0 < weightFor a)) = (orderedCandidates env (aggregateIndex pool) candidates).any
          fun a => decide (0 < weightFor' a) := by
      refine Bool.eq_iff_iff.mpr ?_
      simp only [List.any_eq_true, decide_eq_true_eq]
      refine exists_congr fun a => and_congr_right fun ha => ?_
      rw [hweights a (hperm.mem_iff.mp ha)]
    refine selected_congr hids (fun a ha => ?_) fun a ha => ?_
    · rw [hcurrent, hcurrent', hscore a (hperm.mem_iff.mp ha)]
    · rw [hany, hweights a (hperm.mem_iff.mp ha)]
  unfold pickSmoothWeighted
  cases hindex : aggregateIndex pool with
  | some index =>
      rw [hindex] at hpick
      simp only [hpick _ (fun account => index.weightByAccountId.getD account.id 1) fun _ _ => rfl]
      split <;> next hselected => simp only [hselected]
  | none =>
      rw [hindex] at hpick
      simp only [hpick _ (fun account => effectiveWeight account (nows k')) hsame]
      split <;> next hselected => simp only [hselected]

end Call

/-! ## Runs of calls -/

section Runs

variable (env : Env) (pool : Pool) (candidates configuredAccounts : List Account)
  (nows : ℕ → Millis) (s : PoolScheduler)

/-- The scheduler after as many calls with the same candidates. -/
def smoothRun : ℕ → PoolScheduler
  | 0 => s
  | t + 1 => ((smoothRun t).pickSmoothWeighted env pool candidates configuredAccounts (nows t)).2

/-- What each call of the run picks. -/
def smoothPick (t : ℕ) : Option Account :=
  ((smoothRun env pool candidates configuredAccounts nows s t).pickSmoothWeighted env pool candidates
    configuredAccounts (nows t)).1

variable {env pool candidates configuredAccounts nows s} {weight : Account → ℕ}

theorem smoothConsistent_smoothRun
    (h : SmoothSetting pool candidates configuredAccounts weight nows) (hs : s.FreshlyReset pool)
    (t : ℕ) :
    (smoothRun env pool candidates configuredAccounts nows s t).SmoothConsistent pool
      configuredAccounts := by
  induction t with
  | zero => exact fun state hstate => .inl (hs state hstate)
  | succ t ih =>
      obtain ⟨_, _, _, _, hconsistent⟩ := @pickSmoothWeighted_round env _ _ _ _ _ _ h ih t
      exact hconsistent

theorem smoothScore_smoothRun_of_notMem
    (h : SmoothSetting pool candidates configuredAccounts weight nows) (hs : s.FreshlyReset pool)
    (t : ℕ) (hnot : account.id ∉ candidates.map Account.id) :
    (smoothRun env pool candidates configuredAccounts nows s t).smoothScore pool account =
      s.smoothScore pool account := by
  induction t with
  | zero => rfl
  | succ t ih =>
      have hconsistent := @smoothConsistent_smoothRun env _ _ _ _ _ _ h hs t
      obtain ⟨_, _, _, hkept, _⟩ := @pickSmoothWeighted_round env _ _ _ _ _ _ h hconsistent t
      exact (hkept account hnot).trans ih

theorem smoothScore_of_freshlyReset (hs : s.FreshlyReset pool) (account : Account) :
    s.smoothScore pool account = 0 := by
  rw [smoothScore]
  cases hget : s.smoothWeighted.get? pool.id with
  | none => rfl
  | some state => simp [hs state hget]

/-- The calls of a run are rounds. -/
theorem rounds_smoothRun (h : SmoothSetting pool candidates configuredAccounts weight nows)
    (hs : s.FreshlyReset pool) :
    ∃ turn : ℕ → Account,
      (∀ t, smoothPick env pool candidates configuredAccounts nows s t = some (turn t)) ∧
      Lib.Rounds candidates.toFinset weight
        (fun t => (smoothRun env pool candidates configuredAccounts nows s t).smoothScore pool)
        turn := by
  have hround := fun t =>
    @pickSmoothWeighted_round env _ _ _ _ _ _ h (@smoothConsistent_smoothRun env _ _ _ _ _ _ h hs t) t
  choose turn hturn hrest using hround
  exact ⟨turn, hturn, fun account _ => smoothScore_of_freshlyReset hs account, fun t => (hrest t).1⟩

/-- **Smooth weighted round robin is exact**: from a fresh state, every window of as many calls
as the candidates weigh together picks each candidate as often as it weighs, and every score
is zero at the end of each aligned window. -/
theorem smoothPick_exact (h : SmoothSetting pool candidates configuredAccounts weight nows)
    (hs : s.FreshlyReset pool) :
    (∀ t, ∀ account ∈ candidates,
      Nat.count (fun k =>
        smoothPick env pool candidates configuredAccounts nows s (t + k) = some account)
        (candidates.map weight).sum = weight account) ∧
    ∀ n account, (smoothRun env pool candidates configuredAccounts nows s
      (n * (candidates.map weight).sum)).smoothScore pool account = 0 := by
  obtain ⟨turn, hturn, hrounds⟩ := @rounds_smoothRun env _ _ _ _ _ _ h hs
  have htotal : (candidates.map weight).sum = ∑ account ∈ candidates.toFinset, weight account :=
    (List.sum_toFinset _ (List.Nodup.of_map _ h.nodup_candidates)).symm
  have hpos : 0 < ∑ account ∈ candidates.toFinset, weight account := by
    obtain ⟨account, haccount⟩ := List.exists_mem_of_ne_nil _ h.candidates_ne_nil
    exact Finset.sum_pos' (fun _ _ => Nat.zero_le _)
      ⟨account, List.mem_toFinset.mpr haccount, h.weight_pos account haccount⟩
  have hdet : ∀ t t', (∀ account ∈ candidates.toFinset,
      (smoothRun env pool candidates configuredAccounts nows s t).smoothScore pool account =
        (smoothRun env pool candidates configuredAccounts nows s t').smoothScore pool account) →
      turn t = turn t' := by
    intro t t' hscore
    have hpick := @pickSmoothWeighted_congr env _ _ _ _ _ _ _ h
      (@smoothConsistent_smoothRun env _ _ _ _ _ _ h hs t) (smoothConsistent_smoothRun h hs t') t t'
      fun account haccount => hscore account (List.mem_toFinset.mpr haccount)
    rw [← Option.some.injEq, ← hturn, ← hturn]
    exact hpick
  rw [htotal]
  refine ⟨fun t account haccount => ?_, fun n account => ?_⟩
  · simp only [hturn, Option.some.injEq]
    exact hrounds.count_eq hpos hdet t (List.mem_toFinset.mpr haccount)
  · by_cases hmem : account.id ∈ candidates.map Account.id
    · obtain ⟨candidate, hcandidate, hid⟩ := List.mem_map.mp hmem
      have hzero := hrounds.score_eq_zero hpos n (List.mem_toFinset.mpr hcandidate)
      simpa only [smoothScore, hid] using hzero
    · rw [smoothScore_smoothRun_of_notMem h hs _ hmem]
      exact smoothScore_of_freshlyReset hs account

/-- Two accounts, one of twice the other's weight, are picked twice and once in every three
calls. -/
theorem smoothPick_exact_two_to_one :
    let heavy : Account := { plainAccount "a" 1 with weight := 2 }
    let candidates := [heavy, plainAccount "b" 1]
    let pool := plainPool .weightedRoundRobin
    let s := PoolScheduler.init .default
    (∀ t, Nat.count (fun k =>
      smoothPick Env.plain pool candidates candidates (fun k => k) s (t + k) = some heavy) 3 = 2) ∧
    ∀ n account, (smoothRun Env.plain pool candidates candidates (fun k => k) s
      (n * 3)).smoothScore pool account = 0 := by
  intro heavy candidates pool s
  have hsetting : SmoothSetting pool candidates candidates
      (fun account => if account = heavy then 2 else 1) (fun k => (k : Millis)) := by
    refine ⟨by simp [candidates], by decide +kernel, by decide +kernel, List.nodup_nil,
      by decide +kernel, by decide +kernel, fun k account haccount => ?_⟩
    obtain rfl | rfl : account = heavy ∨ account = plainAccount "b" 1 := by
      simpa [candidates] using haccount
    · rfl
    · rfl
  obtain ⟨hcount, hzero⟩ := @smoothPick_exact Env.plain _ _ _ _ s _ hsetting
    fun state hstate => by cases hstate
  exact ⟨fun t => hcount t heavy List.mem_cons_self, hzero⟩

end Runs

end PoolScheduler

end StonePlus.Scheduler
