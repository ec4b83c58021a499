import StonePlus.Lib.Tally
import StonePlus.Store.SourceTopology
import Mathlib.Tactic.Common

/-!
# StonePlus.Store.TopologyMigration

The migration loses nothing: the accounts stay, every source that is used stays, the sign-in
accounts share their system source, and an API-key account keeps a source of the same shape.
-/

namespace StonePlus.SourceTopology

open Lib

variable {ρ α : Type} {options : Options ρ}

/-! ## Ids -/

theorem numbered_injective (preferred : JsString) : Function.Injective (numbered preferred) := by
  intro m n h
  cases m with
  | zero =>
    cases n with
    | zero => rfl
    | succ n =>
      have hlength := congrArg List.length h
      simp [numbered, js] at hlength
  | succ m =>
    cases n with
    | zero =>
      have hlength := congrArg List.length h
      simp [numbered, js] at hlength
    | succ n =>
      have hdigits : natToString (m + 1) = natToString (n + 1) := by
        simpa [numbered] using h
      exact natToString_injective hdigits

theorem uniqueMigratedProviderId_not_mem (providers : List (ProviderDefinition ρ))
    (preferred : JsString) : uniqueMigratedProviderId providers preferred ∉ ids providers := by
  unfold uniqueMigratedProviderId
  split
  · assumption
  · exact firstFree_not_mem (numbered_injective preferred) 1

theorem systemProviderId_not_mem (providers : List (ProviderDefinition ρ)) (preferred : JsString) :
    systemProviderId providers preferred ∉ ids providers :=
  firstFree_not_mem (numbered_injective preferred) 0

theorem ids_append (ps qs : List (ProviderDefinition ρ)) : ids (ps ++ qs) = ids ps ++ ids qs :=
  List.map_append

theorem mem_ids (h : p ∈ ps) : p.id ∈ ids ps := List.mem_map_of_mem h

/-- Ids that differ stay so when one is added that is free. -/
theorem nodup_ids_concat (h : (ids ps).Nodup) (hfree : p.id ∉ ids ps) :
    (ids (ps ++ [p])).Nodup := by
  rw [ids_append]
  refine List.nodup_append.mpr ⟨h, by simp [ids], ?_⟩
  rintro a ha b hb rfl
  obtain rfl : a = p.id := by simpa [ids] using hb
  exact hfree ha

theorem eq_of_id_eq (h : (ids ps).Nodup) (hp : p ∈ ps) (hq : q ∈ ps) (hid : p.id = q.id) : p = q :=
  List.inj_on_of_nodup_map h hp hq hid

/-! ## What stays of an account, and of a source -/

/-- Only the source of the account may be another. -/
def SameApart (a b : Account α) : Prop := b = { a with providerId := b.providerId }

theorem SameApart.refl (a : Account α) : SameApart a a := rfl

theorem SameApart.of_move (a : Account α) (id : JsString) :
    SameApart a { a with providerId := id } := rfl

theorem SameApart.trans (h : SameApart a b) (h' : SameApart b c) : SameApart a c := by
  rw [SameApart, h', h]

theorem SameApart.id_eq (h : SameApart a b) : b.id = a.id := by rw [h]

theorem SameApart.isApiKeyAccount_eq (h : SameApart a b) :
    isApiKeyAccount b = isApiKeyAccount a := by
  rw [h]
  rfl

/-- The two sources reach the same upstream. -/
def SameShape (p q : ProviderDefinition ρ) : Prop :=
  q.baseUrl = p.baseUrl ∧ q.protocol = p.protocol ∧ q.kind = p.kind

/-! ## Splitting -/

/-- An account stays, or it is an API-key account of the source that gets a copy. -/
def Split (provider : ProviderDefinition ρ) (added : List (ProviderDefinition ρ))
    (a b : Account α) : Prop :=
  SameApart a b ∧ (b = a ∨ isApiKeyAccount a = true ∧ a.providerId = provider.id ∧
    ∃ q ∈ added, q.id = b.providerId)

theorem Split.mono (h : Split provider added a b) (hsub : added ⊆ more) :
    Split provider more a b := by
  refine ⟨h.1, h.2.imp_right ?_⟩
  rintro ⟨hkey, hid, q, hq, hqid⟩
  exact ⟨hkey, hid, q, hsub hq, hqid⟩

/-- Two API-key accounts of one kind, here those that are `linked`, share a source only if it is
one of those that are `open_`. -/
def Shares (linked open_ : JsString → Prop) (a b : Account α) : Prop :=
  linked a.id → linked b.id → isApiKeyAccount a = true → isApiKeyAccount b = true →
    a.providerId = b.providerId → open_ a.providerId

/-- What `splitMembers` does.  Ids in `old` are those of sources that are there already. -/
structure SplitSpec (provider : ProviderDefinition ρ) (linked old : JsString → Prop)
    (hasOne : Bool) (ps : List (ProviderDefinition ρ)) (as : List (Account α))
    (out : List (ProviderDefinition ρ) × List (Account α)) : Prop where
  providers : ∃ added, out.1 = ps ++ added ∧ (ids out.1).Nodup ∧
    (∀ q ∈ added, SameShape provider q ∧ q.sourceType = provider.sourceType) ∧
    List.Forall₂ (Split provider added) as out.2
  known : ∀ b ∈ out.2, linked b.id → isApiKeyAccount b = true →
    old b.providerId ∨ b.providerId ∉ ids ps
  others : hasOne = true → ∀ b ∈ out.2, isApiKeyAccount b = true → b.providerId ≠ provider.id
  apart : out.2.Pairwise (Shares linked fun id => old id ∧ id ≠ provider.id)

theorem splitMembers_spec (provider : ProviderDefinition ρ) (linked old : JsString → Prop)
    (hasOne : Bool) (ps : List (ProviderDefinition ρ)) (as : List (Account α))
    (hnodup : (ids ps).Nodup) (hprovider : provider.id ∈ ids ps)
    (hids : ∀ id, old id → id ∈ ids ps)
    (hknown : ∀ a ∈ as, linked a.id → isApiKeyAccount a = true → old a.providerId) :
    SplitSpec provider linked old hasOne ps as (splitMembers provider hasOne ps as) := by
  induction as generalizing hasOne ps with
  | nil =>
    refine ⟨⟨[], ?_, hnodup, ?_, .nil⟩, ?_, ?_, .nil⟩ <;> simp [splitMembers]
  | cons a as ih =>
    have htail : ∀ b ∈ as, linked b.id → isApiKeyAccount b = true → old b.providerId :=
      fun b hb => hknown b (List.mem_cons_of_mem a hb)
    unfold splitMembers
    split
    · rename_i hmember
      split
      · rename_i hone
        -- The account gets a copy.
        have hfree := uniqueMigratedProviderId_not_mem ps (provider.id ++ js "--account-" ++ a.id)
        let copy : ProviderDefinition ρ :=
          { provider with
            id := uniqueMigratedProviderId ps (provider.id ++ js "--account-" ++ a.id)
            name := orString a.name provider.name
            createdAt := orNumber a.createdAt provider.createdAt
            updatedAt := max provider.updatedAt a.updatedAt }
        have hsub : ∀ id ∈ ids ps, id ∈ ids (ps ++ [copy]) := fun id hid => by
          rw [ids_append]
          exact List.mem_append_left _ hid
        have hcopy : copy.id ∈ ids (ps ++ [copy]) := mem_ids (List.mem_append_right _ (by simp))
        obtain ⟨⟨added, happ, hnodup', hshape, hsplit⟩, hknown', hothers, hapart⟩ :=
          ih true (ps ++ [copy]) (nodup_ids_concat hnodup hfree) (hsub _ hprovider)
            (fun id hid => hsub id (hids id hid)) htail
        refine ⟨⟨copy :: added, ?_, hnodup', ?_, ?_⟩, ?_, ?_, ?_⟩
        · exact happ.trans (List.append_cons ps copy added).symm
        · intro q hq
          rcases List.mem_cons.mp hq with rfl | hq
          · exact ⟨⟨rfl, rfl, rfl⟩, rfl⟩
          · exact hshape q hq
        · refine .cons ⟨.of_move a copy.id, .inr ⟨hmember.2, hmember.1, copy, by simp, rfl⟩⟩ ?_
          exact hsplit.imp fun _ _ h => h.mono (List.subset_cons_self copy added)
        · rintro b hb
          rcases List.mem_cons.mp hb with rfl | hb
          · exact fun _ _ => .inr hfree
          · intro hlinked hkey
            exact (hknown' b hb hlinked hkey).imp_right fun hout hin => hout (hsub _ hin)
        · intro _ b hb hkey
          rcases List.mem_cons.mp hb with rfl | hb
          · exact fun heq => hfree ((congrArg (· ∈ ids ps) heq).mpr hprovider)
          · exact hothers rfl b hb hkey
        · refine List.pairwise_cons.mpr ⟨fun b hb _ hlinked _ hkey heq => ?_, hapart⟩
          have hid : b.providerId = copy.id := heq.symm
          rcases hknown' b hb hlinked hkey with hold | hnew
          · have hin := hids _ hold
            rw [hid] at hin
            exact absurd hin hfree
          · rw [hid] at hnew
            exact absurd hcopy hnew
      · rename_i hone
        -- The first member stays.
        obtain ⟨⟨added, happ, hnodup', hshape, hsplit⟩, hknown', hothers, hapart⟩ :=
          ih true ps hnodup hprovider hids htail
        refine ⟨⟨added, happ, hnodup', hshape, .cons ⟨.refl a, .inl rfl⟩ hsplit⟩, ?_, ?_, ?_⟩
        · rintro b hb
          rcases List.mem_cons.mp hb with rfl | hb
          · exact fun hlinked hkey => .inl (hknown b List.mem_cons_self hlinked hkey)
          · exact hknown' b hb
        · exact fun htrue => absurd htrue hone
        · refine List.pairwise_cons.mpr ⟨fun b hb _ _ _ hkey heq => ?_, hapart⟩
          exact absurd (heq.symm.trans hmember.1) (hothers rfl b hb hkey)
    · rename_i hmember
      obtain ⟨⟨added, happ, hnodup', hshape, hsplit⟩, hknown', hothers, hapart⟩ :=
        ih hasOne ps hnodup hprovider hids htail
      refine ⟨⟨added, happ, hnodup', hshape, .cons ⟨.refl a, .inl rfl⟩ hsplit⟩, ?_, ?_, ?_⟩
      · rintro b hb
        rcases List.mem_cons.mp hb with rfl | hb
        · exact fun hlinked hkey => .inl (hknown b List.mem_cons_self hlinked hkey)
        · exact hknown' b hb
      · intro htrue b hb hkey heq
        rcases List.mem_cons.mp hb with rfl | hb
        · exact hmember ⟨heq, hkey⟩
        · exact hothers htrue b hb hkey heq
      · refine List.pairwise_cons.mpr ⟨fun b _ hlinked _ hkey _ _ => ?_, hapart⟩
        exact ⟨hknown a List.mem_cons_self hlinked hkey, fun heq => hmember ⟨heq, hkey⟩⟩

/-! ## The accounts while sources are split -/

/-- What an account and the one that it came from have in common: the account is the same but for
its source, and an API-key account whose source was there has a source of its own kind, in the
shape it had, unless that was a system source. -/
structure Follows (start : List (ProviderDefinition ρ)) (ps : List (ProviderDefinition ρ))
    (a b : Account α) : Prop where
  same : SameApart a b
  source : isApiKeyAccount a = true → ∀ p ∈ start, p.id = a.providerId →
    ∃ q ∈ ps, q.id = b.providerId ∧
      ((isChatGptProvider p || isGrokProvider p) = false → SameShape p q)

theorem SameShape.trans (h : SameShape p q) (h' : SameShape q r) : SameShape p r :=
  ⟨h'.1.trans h.1, h'.2.1.trans h.2.1, h'.2.2.trans h.2.2⟩

theorem Follows.split (h : Follows start ps a b) (hsplit : Split provider added b c)
    (hnodup : (ids ps).Nodup) (hprovider : provider ∈ ps)
    (hshape : ∀ q ∈ added, SameShape provider q) : Follows start (ps ++ added) a c := by
  refine ⟨h.same.trans hsplit.1, fun hkey p hp hid => ?_⟩
  obtain ⟨q, hq, hqid, hqshape⟩ := h.source hkey p hp hid
  rcases hsplit.2 with rfl | ⟨-, hbid, q', hq', hqid'⟩
  · exact ⟨q, List.mem_append_left _ hq, hqid, hqshape⟩
  · obtain rfl := eq_of_id_eq hnodup hq hprovider (hqid.trans hbid)
    exact ⟨q', List.mem_append_right _ hq', hqid', fun hsystem =>
      (hqshape hsystem).trans (hshape q' hq')⟩

/-- No API-key account is under a system source. -/
def Placed (t : Topology ρ α) : Prop :=
  ∀ a ∈ t.accounts, isApiKeyAccount a = true → ∀ q ∈ t.providers, q.id = a.providerId →
    q.sourceType ≠ .oauthSystem

/-- The state between the splits, of which those of `rest` are to come. -/
structure Splitting (start : Topology ρ α) (linked : JsString → Prop)
    (rest : List (ProviderDefinition ρ)) (before t : Topology ρ α) : Prop where
  nodup : (ids t.providers).Nodup
  waiting : ∀ p ∈ rest, p ∈ t.providers
  follows : List.Forall₂ (Follows start.providers t.providers) start.accounts t.accounts
  unmoved : ∀ b ∈ t.accounts, isApiKeyAccount b = false → b ∈ before.accounts
  grows : before.providers <+: t.providers
  placed : Placed t
  present : ∀ b ∈ t.accounts, linked b.id → isApiKeyAccount b = true →
    b.providerId ∈ ids t.providers
  apart : t.accounts.Pairwise (Shares linked fun id => id ∈ ids rest)

variable {start before t : Topology ρ α} {linked : JsString → Prop}
  {rest : List (ProviderDefinition ρ)} {provider : ProviderDefinition ρ}

theorem Splitting.splitProvider (h : Splitting start linked (provider :: rest) before t) :
    Splitting start linked rest before (splitProvider t provider) := by
  have hprovider : provider ∈ t.providers := h.waiting provider List.mem_cons_self
  unfold SourceTopology.splitProvider
  split
  · rename_i hsystem
    refine { h with waiting := fun p hp => h.waiting p (List.mem_cons_of_mem _ hp), apart := ?_ }
    refine h.apart.imp_of_mem fun ha _ hshares hlinked hlinked' hkey hkey' heq => ?_
    rcases List.mem_cons.mp (hshares hlinked hlinked' hkey hkey' heq) with hid | hid
    · exact absurd hsystem (h.placed _ ha hkey provider hprovider hid.symm)
    · exact hid
  · rename_i hsystem
    obtain ⟨⟨added, happ, hnodup, hshape, hsplit⟩, -, -, hapart⟩ :=
      splitMembers_spec provider linked (· ∈ ids t.providers) false t.providers t.accounts h.nodup
        (mem_ids hprovider) (fun _ hid => hid) h.present
    rw [happ] at hnodup
    have hfresh : ∀ q ∈ added, q.id ∉ ids t.providers := by
      intro q hq hin
      rw [ids_append] at hnodup
      exact (List.nodup_append.mp hnodup).2.2 _ hin _ (mem_ids hq) rfl
    constructor
    · simp only [happ]
      exact hnodup
    · simp only [happ]
      exact fun p hp => List.mem_append_left _ (h.waiting p (List.mem_cons_of_mem _ hp))
    · simp only [happ]
      refine forall₂_trans (fun a b c hab hbc => ?_) h.follows hsplit
      exact hab.split hbc h.nodup hprovider fun q hq => (hshape q hq).1
    · intro b hb hkey
      obtain ⟨a, ha, hsame, hstays | ⟨hkey', -⟩⟩ := exists_of_mem_right hsplit hb
      · rw [hstays] at hkey ⊢
        exact h.unmoved a ha hkey
      · rw [hsame.isApiKeyAccount_eq, hkey'] at hkey
        contradiction
    · simp only [happ]
      exact h.grows.trans (List.prefix_append _ _)
    · intro b hb hkey q hq hid
      simp only [happ] at hq
      obtain ⟨a, ha, hsame, hstays | ⟨-, -, q', hq', hid'⟩⟩ := exists_of_mem_right hsplit hb
      · rw [hstays] at hkey hid
        rcases List.mem_append.mp hq with hq | hq
        · exact h.placed a ha hkey q hq hid
        · rw [(hshape q hq).2]
          exact hsystem
      · obtain rfl := eq_of_id_eq hnodup hq (List.mem_append_right _ hq') (hid.trans hid'.symm)
        rw [(hshape q hq').2]
        exact hsystem
    · intro b hb hlinked hkey
      simp only [happ, ids_append]
      obtain ⟨a, ha, hsame, hstays | ⟨-, -, q', hq', hid'⟩⟩ := exists_of_mem_right hsplit hb
      · rw [hstays] at hlinked hkey ⊢
        exact List.mem_append_left _ (h.present a ha hlinked hkey)
      · exact List.mem_append_right _ (hid' ▸ mem_ids hq')
    · refine pairwise_of_forall₂ hsplit h.apart hapart fun a b c d hac hbd hab hcd => ?_
      intro hlinked hlinked' hkey hkey' heq
      obtain ⟨hold, hne⟩ := hcd hlinked hlinked' hkey hkey' heq
      -- Neither account has moved, since their source was there.
      have hstays : ∀ a c : Account α, Split provider added a c → c.providerId ∈ ids t.providers →
          c = a := by
        rintro a c ⟨-, rfl | ⟨-, -, q, hq, hid⟩⟩ hin
        · rfl
        · exact absurd (hid ▸ hin) (hfresh q hq)
      obtain rfl := hstays a c hac hold
      obtain rfl := hstays b d hbd (heq ▸ hold)
      rcases List.mem_cons.mp (hab hlinked hlinked' hkey hkey' heq) with hid | hid
      · exact absurd hid hne
      · exact hid

theorem Splitting.splitAll (h : Splitting start linked t.providers before t) :
    Splitting start linked [] before (splitAll t) := by
  have hfold : ∀ (rest : List (ProviderDefinition ρ)) (t : Topology ρ α),
      Splitting start linked rest before t →
        Splitting start linked [] before (rest.foldl SourceTopology.splitProvider t) := by
    intro rest
    induction rest with
    | nil => exact fun _ h => h
    | cons provider rest ih => exact fun t h => ih _ h.splitProvider
  exact hfold t.providers t h

/-! ## API-key accounts leave the system sources -/

theorem inferProviderSourceType_ne (kind : ProviderKind) (baseUrl : JsString) :
    inferProviderSourceType options kind baseUrl ≠ .oauthSystem := by
  unfold inferProviderSourceType
  split
  · split <;> simp
  · simp

/-- An account stays, or it is an API-key account that gets a copy of its source. -/
def Separated (ps : List (ProviderDefinition ρ)) (a b : Account α) : Prop :=
  SameApart a b ∧ (b = a ∨ isApiKeyAccount a = true ∧ ∃ p ∈ ps, p.id = a.providerId ∧
    ∃ q ∈ ps, q.id = b.providerId ∧ SameShape p q)

theorem Separated.mono (h : Separated ps a b) (hsub : ps ⊆ qs) : Separated qs a b := by
  refine ⟨h.1, h.2.imp_right ?_⟩
  rintro ⟨hkey, p, hp, hid, q, hq, hqid, hshape⟩
  exact ⟨hkey, p, hsub hp, hid, q, hsub hq, hqid, hshape⟩

theorem separate_spec (ps : List (ProviderDefinition ρ)) (a : Account α)
    (hnodup : (ids ps).Nodup) (hkey : isApiKeyAccount a = true) :
    ∃ added, (separate options ps a).1 = ps ++ added ∧ (ids (ps ++ added)).Nodup ∧
      (∀ q ∈ added, q.sourceType ≠ .oauthSystem) ∧
      Separated (ps ++ added) a (separate options ps a).2 ∧
      ∀ q ∈ ps ++ added, q.id = (separate options ps a).2.providerId →
        q.sourceType ≠ .oauthSystem := by
  have hstays (hplaced : ∀ q ∈ ps, q.id = a.providerId → q.sourceType ≠ .oauthSystem) :
      ∃ added, ps = ps ++ added ∧ (ids (ps ++ added)).Nodup ∧
        (∀ q ∈ added, q.sourceType ≠ .oauthSystem) ∧ Separated (ps ++ added) a a ∧
        ∀ q ∈ ps ++ added, q.id = a.providerId → q.sourceType ≠ .oauthSystem :=
    ⟨[], by simp, by simpa using hnodup, by simp, ⟨.refl a, .inl rfl⟩, by simpa using hplaced⟩
  unfold separate
  split
  · rename_i hnone
    refine hstays fun q hq hid => ?_
    have hno := List.find?_eq_none.mp hnone q hq
    simp [hid] at hno
  · rename_i provider hfind
    have hprovider : provider ∈ ps := List.mem_of_find?_eq_some hfind
    have hid : provider.id = a.providerId := by simpa using List.find?_some hfind
    split
    · rename_i hsource
      refine hstays fun q hq hqid => ?_
      obtain rfl := eq_of_id_eq hnodup hq hprovider (hqid.trans hid.symm)
      exact hsource
    · have hfree := uniqueMigratedProviderId_not_mem ps (provider.id ++ js "--api-" ++ a.id)
      have hsource := @inferProviderSourceType_ne ρ options provider.kind provider.baseUrl
      let clone : ProviderDefinition ρ :=
        { provider with
          id := uniqueMigratedProviderId ps (provider.id ++ js "--api-" ++ a.id)
          name := orString a.name provider.name
          sourceType := inferProviderSourceType options provider.kind provider.baseUrl
          createdAt := orNumber a.createdAt options.timestamp
          updatedAt := options.timestamp }
      have hnodup' : (ids (ps ++ [clone])).Nodup := nodup_ids_concat hnodup hfree
      have hclone : clone ∈ ps ++ [clone] := List.mem_append_right _ (List.mem_singleton_self _)
      have hsources : ∀ q ∈ [clone], q.sourceType ≠ .oauthSystem := by
        intro q hq
        obtain rfl := List.mem_singleton.mp hq
        exact hsource
      refine ⟨[clone], rfl, hnodup', hsources, ⟨.of_move a clone.id, .inr ⟨hkey, provider,
        List.mem_append_left _ hprovider, hid, clone, hclone, rfl, rfl, rfl, rfl⟩⟩, ?_⟩
      intro q hq hqid
      obtain rfl := eq_of_id_eq hnodup' hq hclone hqid
      exact hsource

theorem separateAll_spec (ps : List (ProviderDefinition ρ)) (as : List (Account α))
    (hnodup : (ids ps).Nodup) :
    ∃ added, (separateAll options ps as).1 = ps ++ added ∧ (ids (ps ++ added)).Nodup ∧
      (∀ q ∈ added, q.sourceType ≠ .oauthSystem) ∧
      List.Forall₂ (Separated (ps ++ added)) as (separateAll options ps as).2 ∧
      Placed ⟨ps ++ added, (separateAll options ps as).2⟩ := by
  induction as generalizing ps with
  | nil =>
    exact ⟨[], by simp [separateAll], by simpa using hnodup, by simp, .nil,
      fun a ha => absurd ha List.not_mem_nil⟩
  | cons a as ih =>
    have hhead : ∃ first, (if isApiKeyAccount a then separate options ps a else (ps, a)).1 =
          ps ++ first ∧ (ids (ps ++ first)).Nodup ∧ (∀ q ∈ first, q.sourceType ≠ .oauthSystem) ∧
        Separated (ps ++ first) a (if isApiKeyAccount a then separate options ps a else (ps, a)).2 ∧
        (isApiKeyAccount a = true → ∀ q ∈ ps ++ first,
          q.id = (if isApiKeyAccount a then separate options ps a else (ps, a)).2.providerId →
            q.sourceType ≠ .oauthSystem) := by
      by_cases hkey : isApiKeyAccount a = true
      · obtain ⟨first, hfirst, hnodup', hsources, hseparated, hplaced⟩ :=
          @separate_spec ρ α options ps a hnodup hkey
        simp only [hkey, if_true]
        exact ⟨first, hfirst, hnodup', hsources, hseparated, fun _ => hplaced⟩
      · simp only [hkey, if_false]
        exact ⟨[], by simp, by simpa using hnodup, by simp, ⟨.refl a, .inl rfl⟩,
          fun hkey' => absurd hkey' (by simp)⟩
    obtain ⟨first, hfirst, hnodup', hsources, hseparated, hplaced⟩ := hhead
    obtain ⟨more, hmore, hnodup'', hsources', hrest, hplaced'⟩ := ih (ps ++ first) hnodup'
    rw [← hfirst] at hmore hrest hplaced'
    simp only [hfirst, List.append_assoc] at hmore hnodup'' hrest hplaced'
    have hsub : ps ++ first ⊆ ps ++ (first ++ more) := by
      rw [← List.append_assoc]
      exact List.subset_append_left _ _
    refine ⟨first ++ more, ?_, hnodup'', ?_, ?_, ?_⟩
    · simpa [separateAll, hfirst] using hmore
    · intro q hq
      rcases List.mem_append.mp hq with hq | hq
      · exact hsources q hq
      · exact hsources' q hq
    · simp only [separateAll]
      refine .cons (hseparated.mono hsub) ?_
      simpa only [hfirst] using hrest
    · intro b hb hkey q hq hid
      simp only [separateAll, hfirst] at hb
      rcases List.mem_cons.mp hb with rfl | hb
      · rw [← List.append_assoc] at hq
        rcases List.mem_append.mp hq with hq | hq
        · exact hplaced (by rwa [hseparated.1.isApiKeyAccount_eq] at hkey) q hq hid
        · exact hsources' q hq
      · exact hplaced' b hb hkey q hq hid

/-! ## Sign-in accounts move to their system source -/

/-- The ids stay when a source is overwritten, and the accounts of a source are told by what does
not change. -/
structure SystemSource.Lawful (source : SystemSource ρ α) : Prop where
  assign_id : ∀ p, (source.assign p).id = p.id
  fresh_id : ∀ id, (source.fresh id).id = id
  assign_isSystem : ∀ p, source.isSystem (source.assign p) = true
  fresh_isSystem : ∀ id, source.isSystem (source.fresh id) = true
  owns_move : ∀ a id, source.owns { a with providerId := id } = source.owns a

theorem chatGptSource_lawful : (chatGptSource (α := α) options).Lawful where
  assign_id _ := rfl
  fresh_id _ := rfl
  assign_isSystem _ := by simp [chatGptSource, isChatGptProvider]
  fresh_isSystem _ := by simp [chatGptSource, isChatGptProvider]
  owns_move _ _ := rfl

theorem grokSource_lawful : (grokSource (α := α) options).Lawful where
  assign_id _ := rfl
  fresh_id _ := rfl
  assign_isSystem _ := by simp [grokSource, isGrokProvider]
  fresh_isSystem _ := by simp [grokSource, isGrokProvider]
  owns_move _ _ := rfl

/-- What `adopt` does. -/
structure Adopted (source : SystemSource ρ α) (t t' : Topology ρ α) : Prop where
  nodup : (ids t'.providers).Nodup
  accounts : List.Forall₂ (fun a b => SameApart a b ∧ (source.owns a = false → b = a))
    t.accounts t'.accounts
  kept : ∀ p ∈ t.providers, ∃ q ∈ t'.providers, q.id = p.id ∧ (q = p ∨ source.isSystem p = true)
  home : (∀ b ∈ t'.accounts, source.owns b = false) ∨
    ∃ p ∈ t'.providers, source.isSystem p = true ∧
      ∀ b ∈ t'.accounts, source.owns b = true → b.providerId = p.id

theorem Adopted.unchanged (hnodup : (ids t.providers).Nodup)
    (hnone : ∀ a ∈ t.accounts, source.owns a = false) : Adopted source t t where
  nodup := hnodup
  accounts := List.forall₂_same.mpr fun a _ => ⟨.refl a, fun _ => rfl⟩
  kept p hp := ⟨p, hp, rfl, .inl rfl⟩
  home := .inl hnone

theorem ids_set (h : ps[i]? = some p) (hid : q.id = p.id) : ids (ps.set i q) = ids ps := by
  obtain ⟨hi, rfl⟩ := List.getElem?_eq_some_iff.mp h
  refine List.ext_getElem (by simp [ids]) fun j hj hj' => ?_
  simp only [ids, List.getElem_map, List.getElem_set]
  split
  · rename_i hij
    subst hij
    exact hid
  · rfl

/-- A system source that is in the table is overwritten, and gets its accounts. -/
theorem Adopted.overwritten (hlawful : source.Lawful) (hsub : t.providers ⊆ ps)
    (hnodup : (ids ps).Nodup) (hget : ps[i]? = some provider)
    (hsystem : source.isSystem provider = true) :
    Adopted source t ⟨ps.set i (source.assign provider),
      t.accounts.map fun a => if source.owns a then { a with providerId := provider.id } else a⟩ := by
  have hi : i < ps.length := (List.getElem?_eq_some_iff.mp hget).1
  have hplaced : source.assign provider ∈ ps.set i (source.assign provider) :=
    List.mem_set hi _
  constructor
  · simpa only [ids_set hget (hlawful.assign_id provider)] using hnodup
  · refine List.forall₂_map_right_iff.mpr (List.forall₂_same.mpr fun a _ => ?_)
    cases howns : source.owns a with
    | true => exact ⟨.of_move a provider.id, fun h => nomatch h⟩
    | false => exact ⟨.refl a, fun _ => rfl⟩
  · intro p hp
    obtain ⟨j, hj, hpj⟩ := List.getElem_of_mem (hsub hp)
    by_cases hij : i = j
    · subst hij
      obtain rfl : provider = p := by simpa [hj, hpj] using hget.symm
      exact ⟨_, hplaced, hlawful.assign_id provider, .inr hsystem⟩
    · refine ⟨p, List.mem_iff_getElem?.mpr ⟨j, ?_⟩, rfl, .inl rfl⟩
      rw [List.getElem?_set_ne hij, List.getElem?_eq_getElem hj, hpj]
  · refine .inr ⟨_, hplaced, hlawful.assign_isSystem provider, fun b hb howns => ?_⟩
    obtain ⟨a, -, rfl⟩ := List.mem_map.mp hb
    split at howns
    · rename_i hown
      simp only [hown, if_true, hlawful.assign_id]
    · rename_i hown
      exact absurd howns hown

theorem adopt_spec (hlawful : source.Lawful) (hnodup : (ids t.providers).Nodup) :
    Adopted source t (adopt source t).1 := by
  unfold adopt
  cases hfound : t.providers.findIdx? source.isSystem with
  | some i =>
    obtain ⟨hi, hsystem, -⟩ := List.findIdx?_eq_some_iff_getElem.mp hfound
    have hget : t.providers[i]? = some t.providers[i] := List.getElem?_eq_getElem hi
    simp only [Option.bind_some, hget, Option.map_some]
    exact .overwritten hlawful (List.Subset.refl _) hnodup hget hsystem
  | none =>
    by_cases hany : t.accounts.any source.owns = true
    · have hnodup' : (ids (t.providers ++
          [source.fresh (systemProviderId t.providers source.preferredId)])).Nodup := by
        refine nodup_ids_concat hnodup ?_
        rw [hlawful.fresh_id]
        exact systemProviderId_not_mem t.providers source.preferredId
      simp only [hany, if_true, Option.bind_some, List.getElem?_concat_length, Option.map_some]
      exact .overwritten hlawful (List.subset_append_left _ _) hnodup'
        List.getElem?_concat_length (hlawful.fresh_isSystem _)
    · simp only [hany, if_false, Option.bind_none]
      exact .unchanged hnodup (by simpa using hany)

/-! ## The migration -/

/-- The id is that of an account whose source was there. -/
def HadSource (t : Topology ρ α) (id : JsString) : Prop :=
  ∃ a ∈ t.accounts, a.id = id ∧ a.providerId ∈ ids t.providers

def isOverwritten (p : ProviderDefinition ρ) : Bool := isChatGptProvider p || isGrokProvider p

/-- What `migrateSourceTopology` keeps, and what it brings about. -/
structure Migrated (t t' : Topology ρ α) : Prop where
  accounts : List.Forall₂ SameApart t.accounts t'.accounts
  kept : ∀ p ∈ t.providers,
    (p.sourceType ≠ .oauthSystem ∨ ∃ a ∈ t'.accounts, a.providerId = p.id) →
      ∃ q ∈ t'.providers, q.id = p.id ∧ (q = p ∨ isOverwritten p = true)
  distinct : (ids t'.providers).Nodup
  chatGpt : ∃ id, ∀ a ∈ t'.accounts, isChatGptAccount a = true → a.providerId = id ∧
    ∃ p ∈ t'.providers, p.id = id ∧ p.sourceType = .oauthSystem ∧ p.kind = .openai
  grok : ∃ id, ∀ a ∈ t'.accounts, isGrokAccount a = true → a.providerId = id ∧
    ∃ p ∈ t'.providers, p.id = id ∧ p.sourceType = .oauthSystem ∧ p.kind = .xai
  placed : Placed t'
  single : t'.accounts.Pairwise fun a b => HadSource t a.id → HadSource t b.id →
    isApiKeyAccount a = true → isApiKeyAccount b = true → a.providerId ≠ b.providerId
  shape : List.Forall₂ (fun a b => isApiKeyAccount a = true → ∀ p ∈ t.providers,
    p.id = a.providerId → isOverwritten p = false →
      ∃ q ∈ t'.providers, q.id = b.providerId ∧ SameShape p q) t.accounts t'.accounts

theorem isApiKeyAccount_eq_false_of_isChatGpt (h : isChatGptAccount a = true) :
    isApiKeyAccount a = false := by simp [isApiKeyAccount, h]

theorem isApiKeyAccount_eq_false_of_isGrok (h : isGrokAccount a = true) :
    isApiKeyAccount a = false := by simp [isApiKeyAccount, h]

theorem isGrokAccount_eq_false (h : isChatGptAccount a = true) : isGrokAccount a = false := by
  simp only [isChatGptAccount, Bool.or_eq_true, decide_eq_true_eq] at h
  rcases h with h | h <;> simp [isGrokAccount, h]

theorem isGrokProvider_eq_false (h : isChatGptProvider p = true) : isGrokProvider p = false := by
  simp only [isChatGptProvider, Bool.and_eq_true, decide_eq_true_eq] at h
  simp [isGrokProvider, h.2]

theorem sourceType_of_isChatGpt (h : isChatGptProvider p = true) :
    p.sourceType = .oauthSystem ∧ p.kind = .openai := by
  simpa [isChatGptProvider] using h

theorem sourceType_of_isGrok (h : isGrokProvider p = true) :
    p.sourceType = .oauthSystem ∧ p.kind = .xai := by
  simp only [isGrokProvider, Bool.and_eq_true, decide_eq_true_eq] at h
  exact h.1

/-- Both kinds of sign-in accounts have moved. -/
structure SignedIn (t t' : Topology ρ α) : Prop where
  nodup : (ids t'.providers).Nodup
  accounts : List.Forall₂ (fun a b => SameApart a b ∧ (isApiKeyAccount a = true → b = a))
    t.accounts t'.accounts
  kept : ∀ p ∈ t.providers, ∃ q ∈ t'.providers, q.id = p.id ∧ (q = p ∨ isOverwritten p = true)
  chatGpt : (∀ b ∈ t'.accounts, isChatGptAccount b = false) ∨
    ∃ p ∈ t'.providers, isChatGptProvider p = true ∧
      ∀ b ∈ t'.accounts, isChatGptAccount b = true → b.providerId = p.id
  grok : (∀ b ∈ t'.accounts, isGrokAccount b = false) ∨
    ∃ p ∈ t'.providers, isGrokProvider p = true ∧
      ∀ b ∈ t'.accounts, isGrokAccount b = true → b.providerId = p.id

theorem signedIn_of_adopted (h₁ : Adopted (chatGptSource options) t t₁)
    (h₂ : Adopted (grokSource options) t₁ t₂) : SignedIn t t₂ := by
  have hchat : ∀ c ∈ t₂.accounts, isChatGptAccount c = true → c ∈ t₁.accounts := by
    intro c hc hkind
    obtain ⟨b, hb, hsame, hother⟩ := exists_of_mem_right h₂.accounts hc
    have hb' : isChatGptAccount b = true := by
      rw [hsame] at hkind
      exact hkind
    rwa [hother (isGrokAccount_eq_false hb')]
  constructor
  · exact h₂.nodup
  · refine forall₂_trans (fun a b c hab hbc => ⟨hab.1.trans hbc.1, fun hkey => ?_⟩)
      h₁.accounts h₂.accounts
    simp only [isApiKeyAccount, Bool.and_eq_true, Bool.not_eq_true'] at hkey
    obtain rfl := hab.2 hkey.1
    exact hbc.2 hkey.2
  · intro p hp
    obtain ⟨q, hq, hqid, hqeq⟩ := h₁.kept p hp
    obtain ⟨r, hr, hrid, hreq⟩ := h₂.kept q hq
    refine ⟨r, hr, hrid.trans hqid, ?_⟩
    rcases hqeq with rfl | hsystem
    · refine hreq.imp_right fun hsystem => ?_
      simp only [isOverwritten, Bool.or_eq_true]
      exact .inr hsystem
    · simp only [isOverwritten, Bool.or_eq_true]
      exact .inr (.inl hsystem)
  · rcases h₁.home with hnone | ⟨p, hp, hsystem, hhome⟩
    · refine .inl fun c hc => ?_
      by_contra hkind
      rw [Bool.not_eq_false] at hkind
      exact Bool.eq_false_iff.mp (hnone c (hchat c hc hkind)) hkind
    · obtain ⟨q, hq, -, hstays⟩ := h₂.kept p hp
      have hne := isGrokProvider_eq_false hsystem
      obtain rfl := hstays.resolve_right fun hgrok => Bool.eq_false_iff.mp hne hgrok
      exact .inr ⟨q, hq, hsystem, fun c hc hkind => hhome c (hchat c hc hkind) hkind⟩
  · exact h₂.home

theorem mem_keptSource {t' : Topology ρ α} (h : p ∈ t'.providers)
    (hused : p.sourceType ≠ .oauthSystem ∨ ∃ a ∈ t'.accounts, a.providerId = p.id) :
    p ∈ t'.providers.filter fun p =>
      p.sourceType ≠ .oauthSystem || some p.id = oauthProviderId ||
        t'.accounts.any fun a => a.providerId = p.id := by
  refine List.mem_filter.mpr ⟨h, ?_⟩
  rcases hused with hsource | ⟨a, ha, hid⟩
  · simp [hsource]
  · simp only [Bool.or_eq_true, List.any_eq_true, decide_eq_true_eq]
    exact .inr ⟨a, ha, hid⟩

/-- Between signing in and splitting. -/
theorem splitting_of_signedIn (hids : (t.accounts.map Account.id).Nodup) (h : SignedIn t t₂)
    (hgrows : t₂.providers <+: t₃.providers) (hnodup : (ids t₃.providers).Nodup)
    (hseparated : List.Forall₂ (Separated t₃.providers) t₂.accounts t₃.accounts)
    (hplaced : Placed t₃) : Splitting t (HadSource t) t₃.providers t₃ t₃ := by
  have hfollows : List.Forall₂ (Follows t.providers t₃.providers) t.accounts t₃.accounts := by
    refine forall₂_trans (fun a b c hab hbc => ⟨hab.1.trans hbc.1, fun hkey p hp hid => ?_⟩)
      h.accounts hseparated
    obtain rfl := hab.2 hkey
    obtain ⟨q, hq, hqid, hqeq⟩ := h.kept p hp
    have hq' : q ∈ t₃.providers := hgrows.subset hq
    have hshape : isOverwritten p = false → SameShape p q := fun hother => by
      obtain rfl := hqeq.resolve_right (Bool.eq_false_iff.mp hother)
      exact ⟨rfl, rfl, rfl⟩
    rcases hbc.2 with rfl | ⟨-, p', hp', hid', q', hq'', hqid', hshape'⟩
    · exact ⟨q, hq', hqid.trans hid, hshape⟩
    · obtain rfl := eq_of_id_eq hnodup hp' hq' (hid'.trans (hid.symm.trans hqid.symm))
      exact ⟨q', hq'', hqid', fun hother => (hshape hother).trans hshape'⟩
  have hpresent : ∀ b ∈ t₃.accounts, HadSource t b.id → isApiKeyAccount b = true →
      b.providerId ∈ ids t₃.providers := by
    rintro b hb ⟨a', ha', hid, hin⟩ hkey
    obtain ⟨a, ha, hab⟩ := exists_of_mem_right hfollows hb
    obtain rfl := List.inj_on_of_nodup_map hids ha' ha (hid.trans hab.same.id_eq)
    obtain ⟨p, hp, hpid⟩ := List.mem_map.mp hin
    rw [hab.same.isApiKeyAccount_eq] at hkey
    obtain ⟨q, hq, hqid, -⟩ := hab.source hkey p hp hpid
    exact hqid ▸ mem_ids hq
  exact
    { nodup := hnodup
      waiting := fun _ hp => hp
      follows := hfollows
      unmoved := fun _ hb _ => hb
      grows := List.prefix_refl _
      placed := hplaced
      present := hpresent
      apart := List.pairwise_of_forall_mem_list fun a ha _ _ hlinked _ hkey _ _ =>
        hpresent a ha hlinked hkey }

/-- The sign-in accounts of a kind stay together with their source. -/
theorem home_of_splitting {t₂ : Topology ρ α} {owns : Account α → Bool}
    {isSystem : ProviderDefinition ρ → Bool}
    (howns : ∀ a, owns a = true → isApiKeyAccount a = false)
    (hsystem : ∀ p, isSystem p = true → p.sourceType = .oauthSystem ∧ p.kind = kind)
    (hhome : (∀ b ∈ t₂.accounts, owns b = false) ∨ ∃ p ∈ t₂.providers, isSystem p = true ∧
      ∀ b ∈ t₂.accounts, owns b = true → b.providerId = p.id)
    (hgrows : t₂.providers <+: t₃.providers)
    (hseparated : List.Forall₂ (Separated t₃.providers) t₂.accounts t₃.accounts)
    (h : Splitting t (HadSource t) [] t₃ t₄) :
    ∃ id, ∀ a ∈ t₄.accounts, owns a = true → a.providerId = id ∧
      ∃ p ∈ t₄.providers, p.id = id ∧ p.sourceType = .oauthSystem ∧ p.kind = kind := by
  have hunmoved : ∀ c ∈ t₄.accounts, owns c = true → c ∈ t₂.accounts := by
    intro c hc hkind
    obtain ⟨b, hb, hsame, rfl | ⟨hkey, -⟩⟩ :=
      exists_of_mem_right hseparated (h.unmoved c hc (howns c hkind))
    · exact hb
    · rw [← hsame.isApiKeyAccount_eq, howns c hkind] at hkey
      contradiction
  rcases hhome with hnone | ⟨p, hp, hp', hhome⟩
  · refine ⟨[], fun c hc hkind => ?_⟩
    rw [hnone c (hunmoved c hc hkind)] at hkind
    contradiction
  · refine ⟨p.id, fun c hc hkind => ⟨hhome c (hunmoved c hc hkind) hkind, p, ?_, rfl,
      hsystem p hp'⟩⟩
    exact h.grows.subset (hgrows.subset hp)

theorem migrateSourceTopology_migrated (options : Options ρ) (t : Topology ρ α)
    (hproviders : (ids t.providers).Nodup) (haccounts : (t.accounts.map Account.id).Nodup) :
    Migrated t (migrateSourceTopology options t) := by
  have h₁ := adopt_spec (@chatGptSource_lawful ρ α options) hproviders
  have h₂ := adopt_spec (@grokSource_lawful ρ α options) h₁.nodup
  have hsigned := signedIn_of_adopted h₁ h₂
  generalize ht₂ : (adopt (grokSource options) (adopt (chatGptSource options) t).1).1 = t₂
    at hsigned
  obtain ⟨added, happ, hnodup, -, hseparated, hplaced⟩ :=
    @separateAll_spec ρ α options t₂.providers t₂.accounts hsigned.nodup
  rw [← happ] at hnodup hseparated hplaced
  generalize ht₃ : (⟨(separateAll options t₂.providers t₂.accounts).1,
    (separateAll options t₂.providers t₂.accounts).2⟩ : Topology ρ α) = t₃ at hplaced
  have hproviders₃ : (separateAll options t₂.providers t₂.accounts).1 = t₃.providers := by
    rw [← ht₃]
  have haccounts₃ : (separateAll options t₂.providers t₂.accounts).2 = t₃.accounts := by
    rw [← ht₃]
  have hgrows : t₂.providers <+: t₃.providers := by
    rw [← hproviders₃, happ]
    exact List.prefix_append _ _
  rw [hproviders₃] at hnodup hseparated
  rw [haccounts₃] at hseparated
  have h := (splitting_of_signedIn haccounts hsigned hgrows hnodup hseparated hplaced).splitAll
  have hresult : ∃ oauthProviderId : Option JsString, migrateSourceTopology options t =
      { splitAll t₃ with
        providers := (splitAll t₃).providers.filter fun p =>
          p.sourceType ≠ .oauthSystem || some p.id = oauthProviderId ||
            (splitAll t₃).accounts.any fun a => a.providerId = p.id } := by
    refine ⟨((adopt (chatGptSource options) t).2.bind
      ((adopt (chatGptSource options) t).1.providers[·]?)).map ProviderDefinition.id, ?_⟩
    subst ht₃ ht₂
    rfl
  obtain ⟨oauthProviderId, hresult⟩ := hresult
  rw [hresult]
  generalize splitAll t₃ = t₄ at h
  have hgrows₄ : t₂.providers <+: t₄.providers := hgrows.trans h.grows
  have hhome : ∀ (owns : Account α → Bool) (kind : ProviderKind),
      (∃ id, ∀ a ∈ t₄.accounts, owns a = true → a.providerId = id ∧
        ∃ p ∈ t₄.providers, p.id = id ∧ p.sourceType = .oauthSystem ∧ p.kind = kind) →
      ∃ id, ∀ a ∈ t₄.accounts, owns a = true → a.providerId = id ∧
        ∃ p ∈ t₄.providers.filter fun p =>
          p.sourceType ≠ .oauthSystem || some p.id = oauthProviderId ||
            t₄.accounts.any fun a => a.providerId = p.id,
          p.id = id ∧ p.sourceType = .oauthSystem ∧ p.kind = kind := by
    rintro owns kind ⟨id, hhome⟩
    refine ⟨id, fun a ha hkind => ?_⟩
    obtain ⟨hid, p, hp, hpid, hsystem⟩ := hhome a ha hkind
    exact ⟨hid, p, mem_keptSource hp (.inr ⟨a, ha, hid.trans hpid.symm⟩), hpid, hsystem⟩
  constructor
  · exact h.follows.imp fun _ _ hab => hab.same
  · intro p hp hused
    obtain ⟨q, hq, hqid, hqeq⟩ := hsigned.kept p hp
    refine ⟨q, mem_keptSource (hgrows₄.subset hq) ?_, hqid, hqeq⟩
    rcases hused with hsource | ⟨a, ha, hid⟩
    · rcases hqeq with rfl | hsystem
      · exact .inl hsource
      · simp only [isOverwritten, Bool.or_eq_true] at hsystem
        rcases hsystem with hsystem | hsystem
        · exact absurd (sourceType_of_isChatGpt hsystem).1 hsource
        · exact absurd (sourceType_of_isGrok hsystem).1 hsource
    · exact .inr ⟨a, ha, hid.trans hqid.symm⟩
  · exact h.nodup.sublist (List.filter_sublist.map _)
  · exact hhome _ _ (home_of_splitting (fun _ => isApiKeyAccount_eq_false_of_isChatGpt)
      (fun _ => sourceType_of_isChatGpt) hsigned.chatGpt hgrows hseparated h)
  · exact hhome _ _ (home_of_splitting (fun _ => isApiKeyAccount_eq_false_of_isGrok)
      (fun _ => sourceType_of_isGrok) hsigned.grok hgrows hseparated h)
  · exact fun a ha hkey q hq => h.placed a ha hkey q (List.mem_of_mem_filter hq)
  · refine h.apart.imp fun hshares hlinked hlinked' hkey hkey' heq => ?_
    exact absurd (hshares hlinked hlinked' hkey hkey' heq) List.not_mem_nil
  · refine forall₂_of_mem_right h.follows fun a b hb hab hkey p hp hid hother => ?_
    obtain ⟨q, hq, hqid, hshape⟩ := hab.source hkey p hp hid
    refine ⟨q, mem_keptSource hq (.inl ?_), hqid, hshape hother⟩
    exact h.placed b hb (by rwa [hab.same.isApiKeyAccount_eq]) q hq hqid

/-- A relay and what stands under it. -/
def relay : ProviderDefinition Unit where
  id := js "relay"
  name := js "Relay"
  sourceType := .relay
  kind := .openai
  baseUrl := js "https://relay.example/v1"
  protocol := .openaiChat
  color := none
  models := []
  createdAt := 1
  updatedAt := 1
  others := ()

def member (id providerId : String) (credentialType : Option CredentialType) : Account Unit where
  id := js id
  providerId := js providerId
  name := js id
  credentialType
  createdAt := 1
  updatedAt := 1
  others := ()

theorem migrateSourceTopology_migrated_relay :
    Migrated ⟨[relay], [member "a" "relay" none, member "b" "relay" none,
        member "c" "relay" (some .chatgptOauth)]⟩
      (migrateSourceTopology ⟨fun _ => none, 2, ()⟩
        ⟨[relay], [member "a" "relay" none, member "b" "relay" none,
          member "c" "relay" (some .chatgptOauth)]⟩) :=
  migrateSourceTopology_migrated _ _ (by decide) (by decide)

/-- An account whose source is gone names the id that the copy for another account gets. -/
theorem migrateSourceTopology_shares :
    ∃ (options : Options Unit) (t : Topology Unit Unit),
      (ids t.providers).Nodup ∧ (t.accounts.map Account.id).Nodup ∧
        ∃ p ∈ (migrateSourceTopology options t).providers,
          1 < ((migrateSourceTopology options t).accounts.filter fun a =>
            isApiKeyAccount a && a.providerId = p.id).length :=
  ⟨⟨fun _ => none, 2, ()⟩,
    ⟨[relay], [member "a" "relay" none, member "b" "relay" none,
      member "d" "relay--account-b" none]⟩, by decide, by decide,
    { relay with id := js "relay--account-b", name := js "b" }, by decide +kernel, by decide +kernel⟩

end StonePlus.SourceTopology
