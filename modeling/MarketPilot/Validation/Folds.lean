/-
# MarketPilot.Validation.Folds — what the purged splitter guarantees

A fold is a position in the ordered groups: the test window is a block of groups and training the groups
before it.  Groups may overlap in time, so nothing here argues from the order of samples; the first sample
of a test window is that of its first group (`firstSeen_le`), which is why the cutoff only moves forward
and training sets only grow.
-/
import MarketPilot.Validation.WalkForward

namespace MarketPilot.Validation

open MarketPilot.Python MarketPilot.Foundation

namespace PurgedWalkForwardSplitter

variable {samples samples' : List ValidationSample} {groupId : String}

/-! ## Groups -/

theorem mem_members {sample : ValidationSample} :
    sample ∈ members samples groupId ↔ sample ∈ samples ∧ sample.groupId = groupId := by
  rw [members, List.mem_filter, decide_eq_true_eq]

theorem mem_orderedGroups :
    groupId ∈ orderedGroups samples ↔ ∃ sample ∈ samples, sample.groupId = groupId := by
  rw [orderedGroups, mem_orderBy, groupIds, List.mem_dedup, List.mem_map]

theorem groupRank_nodup : ((groupIds samples).map (groupRank samples)).Nodup := by
  apply List.Nodup.map
  · exact fun a b h => congrArg (fun rank => (ofLex rank).2) h
  · exact List.nodup_dedup _

/-- The groups ascend. -/
theorem orderedGroups_ascending :
    (orderedGroups samples).Pairwise fun a b => groupRank samples a < groupRank samples b :=
  pairwise_lt_orderBy (fun _ _ => Iff.rfl) groupRank_nodup

theorem orderedGroups_nodup : (orderedGroups samples).Nodup :=
  orderedGroups_ascending.imp fun h heq => absurd (heq ▸ h) (lt_irrefl _)

/-- A later group starts no earlier. -/
theorem firstSeen_le_of_groupRank {a b : String} (h : groupRank samples a < groupRank samples b) :
    firstSeen samples a ≤ firstSeen samples b := by
  rcases Prod.Lex.toLex_lt_toLex.mp h with hlt | ⟨heq, -⟩
  · exact hlt.le
  · exact heq.le

/-- The minimum of a group is below its samples and one of them. -/
theorem firstSeen_spec {sample : ValidationSample} (h : sample ∈ members samples groupId) :
    firstSeen samples groupId ≤ sample.observedAt ∧
      ∃ first ∈ members samples groupId, first.observedAt = firstSeen samples groupId := by
  have hmem : sample.observedAt ∈ (members samples groupId).map ValidationSample.observedAt :=
    List.mem_map_of_mem h
  have hmin : ∃ t, ((members samples groupId).map ValidationSample.observedAt).min? = some t ∧
      firstSeen samples groupId = t := by
    unfold firstSeen
    cases htimes : (members samples groupId).map ValidationSample.observedAt with
    | nil =>
      rw [htimes] at hmem
      exact absurd hmem List.not_mem_nil
    | cons first rest => exact ⟨_, rfl, rfl⟩
  obtain ⟨t, ht, hfirst⟩ := hmin
  obtain ⟨hin, hle⟩ := List.min?_eq_some_iff.mp ht
  rw [hfirst]
  exact ⟨hle _ hmem, List.mem_map.mp hin⟩

/-! ## Samples -/

theorem mem_samplesOf {groups : List String} {keep : ValidationSample → Bool}
    {sample : ValidationSample} :
    sample ∈ samplesOf samples groups keep ↔
      sample ∈ samples ∧ sample.groupId ∈ groups ∧ keep sample = true := by
  rw [samplesOf, mem_orderBy, List.mem_filter, List.mem_flatMap]
  simp only [mem_members]
  constructor
  · rintro ⟨⟨group, hgroup, hsample, rfl⟩, hkeep⟩
    exact ⟨hsample, hgroup, hkeep⟩
  · rintro ⟨hsample, hgroup, hkeep⟩
    exact ⟨⟨_, hgroup, hsample, rfl⟩, hkeep⟩

/-- The samples of some groups ascend in time. -/
theorem samplesOf_ascending (samples : List ValidationSample) (groups : List String)
    (keep : ValidationSample → Bool) :
    (samplesOf samples groups keep).Pairwise fun a b => sampleRank a ≤ sampleRank b :=
  pairwise_orderBy (fun _ _ => Iff.rfl) _

theorem observedAt_le_of_sampleRank {a b : ValidationSample} (h : sampleRank a ≤ sampleRank b) :
    a.observedAt ≤ b.observedAt := by
  rcases Prod.Lex.toLex_le_toLex.mp h with hlt | ⟨heq, -⟩
  · exact hlt.le
  · exact heq.le

/-- An id names one sample. -/
theorem eq_of_sampleId (hids : (samples.map ValidationSample.sampleId).Nodup)
    {a b : ValidationSample} (ha : a ∈ samples) (hb : b ∈ samples) (h : a.sampleId = b.sampleId) :
    a = b :=
  List.inj_on_of_nodup_map hids ha hb h

/-- The ids of a selection, said of the samples. -/
theorem sampleId_mem_iff (hids : (samples.map ValidationSample.sampleId).Nodup)
    {groups : List String} {keep : ValidationSample → Bool} {sample : ValidationSample}
    (hsample : sample ∈ samples) :
    sample.sampleId ∈ (samplesOf samples groups keep).map ValidationSample.sampleId ↔
      sample.groupId ∈ groups ∧ keep sample = true := by
  rw [List.mem_map]
  constructor
  · rintro ⟨other, hother, hid⟩
    obtain ⟨hin, hgroup, hkeep⟩ := mem_samplesOf.mp hother
    obtain rfl := eq_of_sampleId hids hin hsample hid
    exact ⟨hgroup, hkeep⟩
  · rintro ⟨hgroup, hkeep⟩
    exact ⟨sample, mem_samplesOf.mpr ⟨hsample, hgroup, hkeep⟩, rfl⟩

/-! ## One fold -/

variable {S : PurgedWalkForwardSplitter}

/-- The fold at a position of the ordered groups. -/
structure FoldAt (S : PurgedWalkForwardSplitter) (samples : List ValidationSample) (offset : Nat)
    (fold : WalkForwardFold) : Prop where
  fits : offset + S.testGroups ≤ (orderedGroups samples).length
  cutoff : fold.purgeCutoff = fold.testStart - S.purgeGap
  trainIds : fold.trainIds = (samplesOf samples (block (orderedGroups samples) 0 offset) fun sample =>
    sample.observedAt < fold.purgeCutoff).map ValidationSample.sampleId
  testIds : fold.testIds = (samplesOf samples (block (orderedGroups samples) offset S.testGroups)
    fun _ => true).map ValidationSample.sampleId
  first : ∃ sample ∈ samples,
    sample.groupId ∈ block (orderedGroups samples) offset S.testGroups ∧
      sample.observedAt = fold.testStart
  last : ∃ sample ∈ samples,
    sample.groupId ∈ block (orderedGroups samples) offset S.testGroups ∧
      sample.observedAt = fold.testEnd
  within : ∀ sample ∈ samples,
    sample.groupId ∈ block (orderedGroups samples) offset S.testGroups →
      fold.testStart ≤ sample.observedAt ∧ sample.observedAt ≤ fold.testEnd

/-- **What one turn of the loop returns.** -/
theorem foldAt_spec {offset index : Nat} {fold : WalkForwardFold}
    (hfits : offset + S.testGroups ≤ (orderedGroups samples).length)
    (h : S.foldAt samples (orderedGroups samples) offset index = .ok fold) :
    FoldAt S samples offset fold := by
  unfold foldAt at h
  dsimp only at h
  split at h
  · rename_i first last hfirst hlast
    obtain ⟨purgeCutoff, hcutoff, h⟩ := ok_of_bind h
    have hcutoff := eq_add_of_addDuration hcutoff
    split at h
    · exact absurd h (by simp)
    obtain rfl := Except.ok.inj h
    have hmem := mem_samplesOf.mp (List.mem_of_mem_head? (Option.mem_def.mpr hfirst))
    have hmem' := mem_samplesOf.mp (List.mem_of_getLast? hlast)
    have hascending := samplesOf_ascending samples
      (block (orderedGroups samples) offset S.testGroups) fun _ => true
    exact
      { fits := hfits
        cutoff := by
          show purgeCutoff = first.observedAt - S.purgeGap
          omega
        trainIds := rfl
        testIds := rfl
        first := ⟨first, hmem.1, hmem.2.1, rfl⟩
        last := ⟨last, hmem'.1, hmem'.2.1, rfl⟩
        within := by
          intro sample hsample hgroup
          have hin : sample ∈ samplesOf samples (block (orderedGroups samples) offset S.testGroups)
              fun _ => true := mem_samplesOf.mpr ⟨hsample, hgroup, rfl⟩
          refine ⟨observedAt_le_of_sampleRank ?_,
            observedAt_le_of_sampleRank (le_rank_getLast? hascending hlast sample hin)⟩
          obtain ⟨rest, hrest⟩ := List.head?_eq_some_iff.mp hfirst
          rw [hrest] at hin hascending
          rcases List.mem_cons.mp hin with rfl | hlater
          · exact le_refl _
          · exact (List.pairwise_cons.mp hascending).1 sample hlater }
  · exact absurd h (by simp)

/-- The test window starts with the first sample of its first group. -/
theorem FoldAt.testStart_le {offset : Nat} {fold : WalkForwardFold} (h : FoldAt S samples offset fold)
    {group : String} (hgroup : (orderedGroups samples)[offset]? = some group) :
    fold.testStart ≤ firstSeen samples group := by
  have hmem : group ∈ block (orderedGroups samples) offset S.testGroups :=
    mem_block_iff.mpr ⟨offset, le_refl _, Nat.lt_add_of_pos_right S.testGroups_pos, hgroup⟩
  obtain ⟨sample, hsample, hname⟩ := mem_orderedGroups.mp (List.mem_of_getElem? hgroup)
  obtain ⟨-, first, hfirst, heq⟩ := firstSeen_spec (mem_members.mpr ⟨hsample, hname⟩)
  obtain ⟨hin, hname⟩ := mem_members.mp hfirst
  rw [← heq]
  exact (h.within first hin (hname ▸ hmem)).1

/-- **The cutoff only moves forward.** -/
theorem FoldAt.testStart_mono {offset offset' : Nat} {fold fold' : WalkForwardFold}
    (h : FoldAt S samples offset fold) (h' : FoldAt S samples offset' fold') (hle : offset ≤ offset') :
    fold.testStart ≤ fold'.testStart := by
  obtain ⟨group, hgroup, -⟩ := exists_first_of_block S.testGroups_pos h.fits
  obtain ⟨first, hfirst, hwindow, heq⟩ := h'.first
  have hbelow : firstSeen samples group ≤ firstSeen samples first.groupId := by
    rcases rel_of_block orderedGroups_ascending hle hgroup hwindow with rfl | hlt
    · exact le_refl _
    · exact firstSeen_le_of_groupRank hlt
  calc fold.testStart ≤ firstSeen samples group := h.testStart_le hgroup
    _ ≤ firstSeen samples first.groupId := hbelow
    _ ≤ first.observedAt := (firstSeen_spec (mem_members.mpr ⟨hfirst, rfl⟩)).1
    _ = fold'.testStart := heq

/-! ## The loop -/

/-- The folds sit at the offsets of the loop ... -/
theorem foldsFrom_spec : ∀ {turns offset index : Nat} {folds : List WalkForwardFold},
    S.foldsFrom samples (orderedGroups samples) turns offset index = .ok folds →
      ∀ k fold, folds[k]? = some fold →
        FoldAt S samples (offset + k * S.stepGroups) fold ∧ fold.foldIndex = index + k
  | 0, _, _, folds, h => by
    obtain rfl := Except.ok.inj h
    exact fun k fold hk => absurd hk (by simp)
  | turns + 1, offset, index, folds, h => by
    unfold foldsFrom at h
    split at h
    · rename_i hfits
      obtain ⟨fold, hfold, h⟩ := ok_of_bind h
      obtain ⟨rest, hrest, h⟩ := ok_of_bind h
      obtain rfl := Except.ok.inj h
      intro k found hk
      cases k with
      | zero =>
        obtain rfl := Option.some.inj hk
        refine ⟨by simpa using foldAt_spec hfits hfold, ?_⟩
        unfold foldAt at hfold
        dsimp only at hfold
        split at hfold
        · obtain ⟨_, -, hfold⟩ := ok_of_bind hfold
          split at hfold
          · exact absurd hfold (by simp)
          · rw [← Except.ok.inj hfold]
            rfl
        · exact absurd hfold (by simp)
      | succ k =>
        obtain ⟨hat, hindex⟩ := foldsFrom_spec hrest k found hk
        refine ⟨?_, by omega⟩
        rwa [show offset + (k + 1) * S.stepGroups = offset + S.stepGroups + k * S.stepGroups by
          rw [Nat.succ_mul]; omega]
    · obtain rfl := Except.ok.inj h
      exact fun k fold hk => absurd hk (by simp)

/-- ... and there is one for every offset the test window fits at. -/
theorem foldsFrom_complete : ∀ {turns offset index : Nat} {folds : List WalkForwardFold},
    (orderedGroups samples).length ≤ offset + turns →
    S.foldsFrom samples (orderedGroups samples) turns offset index = .ok folds →
      ∀ k, offset + k * S.stepGroups + S.testGroups ≤ (orderedGroups samples).length →
        ∃ fold, folds[k]? = some fold
  | 0, offset, _, folds, hturns, _ => by
    intro k hk
    have := S.testGroups_pos
    have := Nat.zero_le (k * S.stepGroups)
    omega
  | turns + 1, offset, index, folds, hturns, h => by
    intro k hk
    have hstep := S.stepGroups_pos
    unfold foldsFrom at h
    split at h
    · obtain ⟨fold, hfold, h⟩ := ok_of_bind h
      obtain ⟨rest, hrest, h⟩ := ok_of_bind h
      obtain rfl := Except.ok.inj h
      cases k with
      | zero => exact ⟨fold, rfl⟩
      | succ k =>
        rw [Nat.succ_mul] at hk
        exact foldsFrom_complete (by omega) hrest k (by omega)
    · rename_i hfits
      have := Nat.zero_le (k * S.stepGroups)
      omega

/-! ## The guarantees -/

/-- What the splitter promises of one fold. -/
structure Sound (S : PurgedWalkForwardSplitter) (samples : List ValidationSample)
    (fold : WalkForwardFold) : Prop where
  cutoff : fold.purgeCutoff = fold.testStart - S.purgeGap
  trainIds : ∀ id ∈ fold.trainIds, ∃ sample ∈ samples, sample.sampleId = id
  testIds : ∀ id ∈ fold.testIds, ∃ sample ∈ samples, sample.sampleId = id
  purged : ∀ sample ∈ samples, sample.sampleId ∈ fold.trainIds →
    sample.observedAt < fold.testStart - S.purgeGap
  testStart : (∃ sample ∈ samples, sample.sampleId ∈ fold.testIds ∧
      sample.observedAt = fold.testStart) ∧
    ∀ sample ∈ samples, sample.sampleId ∈ fold.testIds → fold.testStart ≤ sample.observedAt
  testEnd : (∃ sample ∈ samples, sample.sampleId ∈ fold.testIds ∧
      sample.observedAt = fold.testEnd) ∧
    ∀ sample ∈ samples, sample.sampleId ∈ fold.testIds → sample.observedAt ≤ fold.testEnd
  idsApart : ∀ id ∈ fold.trainIds, id ∉ fold.testIds
  groupsApart : ∀ a ∈ samples, ∀ b ∈ samples, a.sampleId ∈ fold.trainIds →
    b.sampleId ∈ fold.testIds → a.groupId ≠ b.groupId
  wholeGroups : ∀ a ∈ samples, ∀ b ∈ samples, a.groupId = b.groupId →
    (a.sampleId ∈ fold.testIds ↔ b.sampleId ∈ fold.testIds)

theorem FoldAt.mem_testIds (hids : (samples.map ValidationSample.sampleId).Nodup) {offset : Nat}
    {fold : WalkForwardFold} (h : FoldAt S samples offset fold) {sample : ValidationSample}
    (hsample : sample ∈ samples) : sample.sampleId ∈ fold.testIds ↔
      sample.groupId ∈ block (orderedGroups samples) offset S.testGroups := by
  rw [h.testIds, sampleId_mem_iff hids hsample]
  simp

theorem FoldAt.mem_trainIds (hids : (samples.map ValidationSample.sampleId).Nodup) {offset : Nat}
    {fold : WalkForwardFold} (h : FoldAt S samples offset fold) {sample : ValidationSample}
    (hsample : sample ∈ samples) : sample.sampleId ∈ fold.trainIds ↔
      sample.groupId ∈ block (orderedGroups samples) 0 offset ∧
        sample.observedAt < fold.testStart - S.purgeGap := by
  rw [h.trainIds, sampleId_mem_iff hids hsample, h.cutoff, decide_eq_true_eq]

theorem exists_sample_of_mem {groups : List String} {keep : ValidationSample → Bool} {id : String}
    (h : id ∈ (samplesOf samples groups keep).map ValidationSample.sampleId) :
    ∃ sample ∈ samples, sample.sampleId = id := by
  obtain ⟨sample, hsample, hid⟩ := List.mem_map.mp h
  exact ⟨sample, (mem_samplesOf.mp hsample).1, hid⟩

theorem FoldAt.sound (hids : (samples.map ValidationSample.sampleId).Nodup) {offset : Nat}
    {fold : WalkForwardFold} (h : FoldAt S samples offset fold) : Sound S samples fold := by
  have htest := fun {sample} (hsample : sample ∈ samples) => h.mem_testIds hids hsample
  have htrain := fun {sample} (hsample : sample ∈ samples) => h.mem_trainIds hids hsample
  have htrainIds : ∀ id ∈ fold.trainIds, ∃ sample ∈ samples, sample.sampleId = id :=
    fun id hid => exists_sample_of_mem (h.trainIds ▸ hid)
  have hapart : ∀ a ∈ samples, ∀ b ∈ samples, a.sampleId ∈ fold.trainIds →
      b.sampleId ∈ fold.testIds → a.groupId ≠ b.groupId := by
    intro a ha b hb hain hbin hsame
    have hbefore := ((htrain ha).mp hain).1
    have hwindow := (htest hb).mp hbin
    rw [← hsame] at hwindow
    exact block_disjoint orderedGroups_nodup (by omega) hbefore hwindow
  obtain ⟨first, hfirst, hfirstGroup, hstart⟩ := h.first
  obtain ⟨last, hlast, hlastGroup, hend⟩ := h.last
  exact
    { cutoff := h.cutoff
      trainIds := htrainIds
      testIds := fun id hid => exists_sample_of_mem (h.testIds ▸ hid)
      purged := fun sample hsample hin => ((htrain hsample).mp hin).2
      testStart := ⟨⟨first, hfirst, (htest hfirst).mpr hfirstGroup, hstart⟩,
        fun sample hsample hin => (h.within sample hsample ((htest hsample).mp hin)).1⟩
      testEnd := ⟨⟨last, hlast, (htest hlast).mpr hlastGroup, hend⟩,
        fun sample hsample hin => (h.within sample hsample ((htest hsample).mp hin)).2⟩
      idsApart := by
        intro id htrainId htestId
        obtain ⟨sample, hsample, rfl⟩ := htrainIds id htrainId
        exact hapart sample hsample sample hsample htrainId htestId rfl
      groupsApart := hapart
      wholeGroups := by
        intro a ha b hb hsame
        rw [htest ha, htest hb, hsame] }

/-- Training sets grow from fold to fold. -/
theorem FoldAt.trainIds_subset (hids : (samples.map ValidationSample.sampleId).Nodup)
    {offset offset' : Nat} {fold fold' : WalkForwardFold} (h : FoldAt S samples offset fold)
    (h' : FoldAt S samples offset' fold') (hle : offset ≤ offset') :
    fold.trainIds ⊆ fold'.trainIds := by
  intro id hid
  obtain ⟨sample, hsample, rfl⟩ := exists_sample_of_mem (h.trainIds ▸ hid)
  obtain ⟨hgroup, hbefore⟩ := (h.mem_trainIds hids hsample).mp hid
  apply (h'.mem_trainIds hids hsample).mpr
  refine ⟨block_prefix_subset _ hle _ hgroup, ?_⟩
  have := h.testStart_mono h' hle
  omega

/-- Test windows that do not overlap share no sample. -/
theorem FoldAt.testIds_disjoint (hids : (samples.map ValidationSample.sampleId).Nodup)
    {offset offset' : Nat} {fold fold' : WalkForwardFold} (h : FoldAt S samples offset fold)
    (h' : FoldAt S samples offset' fold') (hle : offset + S.testGroups ≤ offset') :
    fold.testIds.Disjoint fold'.testIds := by
  intro id hid hid'
  obtain ⟨sample, hsample, rfl⟩ := exists_sample_of_mem (h.testIds ▸ hid)
  exact block_disjoint orderedGroups_nodup hle ((h.mem_testIds hids hsample).mp hid)
    ((h'.mem_testIds hids hsample).mp hid')

/-! ## The order of the input -/

theorem members_perm (h : samples.Perm samples') (groupId : String) :
    (members samples groupId).Perm (members samples' groupId) :=
  h.filter _

theorem firstSeen_perm (h : samples.Perm samples') (groupId : String) :
    firstSeen samples groupId = firstSeen samples' groupId := by
  have hmembers := members_perm h groupId
  cases hcase : members samples groupId with
  | nil =>
    have hnil : members samples' groupId = [] := by
      rw [hcase] at hmembers
      exact List.Perm.nil_eq hmembers |>.symm
    rw [firstSeen, firstSeen, hcase, hnil]
  | cons sample rest =>
    have hsample : sample ∈ members samples groupId := hcase ▸ List.mem_cons_self
    have hsample' := hmembers.mem_iff.mp hsample
    obtain ⟨-, first, hfirst, heq⟩ := firstSeen_spec hsample
    obtain ⟨-, first', hfirst', heq'⟩ := firstSeen_spec hsample'
    apply le_antisymm
    · rw [← heq']
      exact (firstSeen_spec (hmembers.mem_iff.mpr hfirst')).1
    · rw [← heq]
      exact (firstSeen_spec (hmembers.mem_iff.mp hfirst)).1

theorem orderedGroups_perm (h : samples.Perm samples') :
    orderedGroups samples = orderedGroups samples' := by
  have hrank : groupRank samples = groupRank samples' := by
    funext group
    rw [groupRank, groupRank, firstSeen_perm h]
  unfold orderedGroups
  rw [hrank]
  have hle : ∀ a b, groupRank samples' a ≤ groupRank samples' b ↔
      groupRank samples' a ≤ groupRank samples' b := fun _ _ => Iff.rfl
  apply orderBy_eq_of_perm hle
  · rw [← hrank]
    exact groupRank_nodup
  · exact (h.map ValidationSample.groupId).dedup

/-- The same samples in another order make the same selection: ids are unique, so the sort key is. -/
theorem samplesOf_perm (hids : (samples.map ValidationSample.sampleId).Nodup)
    (h : samples.Perm samples') {groups : List String} (hgroups : groups.Nodup)
    (keep : ValidationSample → Bool) : samplesOf samples groups keep = samplesOf samples' groups keep := by
  have hperm : (groups.flatMap (members samples)).Perm (groups.flatMap (members samples')) :=
    List.Perm.flatMap_left groups fun group _ => members_perm h group
  have hnodup : (groups.flatMap (members samples)).Nodup := by
    rw [List.nodup_flatMap]
    refine ⟨fun group _ => (List.Nodup.of_map _ hids).filter _, ?_⟩
    refine hgroups.imp ?_
    intro a b hne sample ha hb
    exact hne ((mem_members.mp ha).2.symm.trans (mem_members.mp hb).2)
  have hkeys : (((groups.flatMap (members samples)).filter keep).map sampleRank).Nodup := by
    apply List.Nodup.map_on _ (hnodup.filter _)
    intro a ha b hb hrank
    obtain ⟨group, -, ha⟩ := List.mem_flatMap.mp (List.mem_filter.mp ha).1
    obtain ⟨group', -, hb⟩ := List.mem_flatMap.mp (List.mem_filter.mp hb).1
    exact eq_of_sampleId hids (mem_members.mp ha).1 (mem_members.mp hb).1
      (congrArg (fun rank => (ofLex rank).2) hrank)
  exact orderBy_eq_of_perm (fun _ _ => Iff.rfl) hkeys (hperm.filter keep)

theorem block_nodup {xs : List String} (h : xs.Nodup) (start count : Nat) :
    (block xs start count).Nodup :=
  (h.sublist (List.drop_sublist _ _)).sublist (List.take_sublist _ _)

theorem foldsFrom_perm (hids : (samples.map ValidationSample.sampleId).Nodup)
    (h : samples.Perm samples') : ∀ turns offset index,
    S.foldsFrom samples (orderedGroups samples) turns offset index =
      S.foldsFrom samples' (orderedGroups samples) turns offset index
  | 0, _, _ => rfl
  | turns + 1, offset, index => by
    have hfold : S.foldAt samples (orderedGroups samples) offset index =
        S.foldAt samples' (orderedGroups samples) offset index := by
      have hgroups : (orderedGroups samples).Nodup := orderedGroups_nodup
      have hselect := fun start count keep =>
        samplesOf_perm hids h (block_nodup hgroups start count) keep
      unfold foldAt
      simp only [hselect]
    unfold foldsFrom
    rw [hfold, foldsFrom_perm hids h turns]

/-- **The result does not depend on the order of the input.** -/
theorem split_perm (h : samples.Perm samples') : S.split samples = S.split samples' := by
  have hnodup := (h.map ValidationSample.sampleId).nodup_iff
  unfold split
  by_cases hids : (samples.map ValidationSample.sampleId).Nodup
  · rw [if_neg (not_not.mpr hids), if_neg (not_not.mpr (hnodup.mp hids))]
    dsimp only
    rw [foldsFrom_perm hids h, orderedGroups_perm h]
  · rw [if_pos hids, if_pos (fun h' => hids (hnodup.mpr h'))]

/-! ## All folds -/

/-- The loop goes on as long as a test window fits. -/
theorem split_complete {folds : List WalkForwardFold} (h : S.split samples = .ok folds) (k : Nat)
    (hfits : S.minTrainGroups + k * S.stepGroups + S.testGroups ≤ (orderedGroups samples).length) :
    ∃ fold, folds[k]? = some fold ∧ fold.foldIndex = k := by
  unfold split at h
  split at h
  · exact absurd h (by simp)
  obtain ⟨fold, hfold⟩ := foldsFrom_complete (Nat.le_add_left _ _) h k hfits
  have hindex := (foldsFrom_spec h k fold hfold).2
  exact ⟨fold, hfold, by omega⟩

/-- Every fold of a split sits somewhere, and ids are unique. -/
theorem exists_foldAt {folds : List WalkForwardFold} (h : S.split samples = .ok folds) :
    ∀ fold ∈ folds, (samples.map ValidationSample.sampleId).Nodup ∧
      ∃ offset, FoldAt S samples offset fold := by
  intro fold hfold
  unfold split at h
  split at h
  · exact absurd h (by simp)
  rename_i hids
  obtain ⟨k, hk⟩ := List.mem_iff_getElem?.mp hfold
  exact ⟨not_not.mp hids, _, (foldsFrom_spec h k fold hk).1⟩

/-- Test sets of different folds are disjoint if the window moves by its own length or more. -/
theorem pairwise_disjoint_testIds {folds : List WalkForwardFold} (h : S.split samples = .ok folds)
    (hstep : S.testGroups ≤ S.stepGroups) : folds.Pairwise fun a b => a.testIds.Disjoint b.testIds := by
  unfold split at h
  split at h
  · exact absurd h (by simp)
  rename_i hids
  rw [List.pairwise_iff_getElem]
  intro i j hi hj hlt
  have hat := fun k fold hk => (foldsFrom_spec h k fold hk).1
  apply (hat i _ (List.getElem?_eq_getElem hi)).testIds_disjoint (not_not.mp hids)
    (hat j _ (List.getElem?_eq_getElem hj))
  have := Nat.mul_le_mul_right S.stepGroups (Nat.succ_le_of_lt hlt)
  rw [Nat.succ_mul] at this
  omega

/-- **Every fold of a split is sound**, training sets are nested, test sets of different folds are
disjoint if the window moves by its own length or more, and any order of the input gives the same folds. -/
theorem split_sound (S : PurgedWalkForwardSplitter) (samples : List ValidationSample)
    (folds : List WalkForwardFold) (h : S.split samples = .ok folds) :
    (∀ fold ∈ folds, Sound S samples fold) ∧
      folds.Pairwise (fun a b => a.trainIds ⊆ b.trainIds) ∧
      (S.testGroups ≤ S.stepGroups → folds.Pairwise fun a b => a.testIds.Disjoint b.testIds) ∧
      ∀ samples', samples.Perm samples' → S.split samples' = .ok folds := by
  have horder : ∀ samples', samples.Perm samples' → S.split samples' = .ok folds :=
    fun samples' hperm => (split_perm hperm).symm.trans h
  have hdisjoint := pairwise_disjoint_testIds h
  unfold split at h
  split at h
  · exact absurd h (by simp)
  rename_i hids
  have hids := not_not.mp hids
  have hat := fun k fold hk => (foldsFrom_spec h k fold hk).1
  refine ⟨?_, ?_, hdisjoint, horder⟩
  · intro fold hfold
    obtain ⟨k, hk⟩ := List.mem_iff_getElem?.mp hfold
    exact (hat k fold hk).sound hids
  · rw [List.pairwise_iff_getElem]
    intro i j hi hj hlt
    apply (hat i _ (List.getElem?_eq_getElem hi)).trainIds_subset hids
      (hat j _ (List.getElem?_eq_getElem hj))
    have := Nat.mul_le_mul_right S.stepGroups hlt.le
    omega

/-! ## Two days -/

/-- One group to train on, one to test, a gap of 10. -/
def oneAndOne : PurgedWalkForwardSplitter where
  minTrainGroups := 1
  testGroups := 1
  purgeGap := 10
  stepGroups := 1
  minTrainGroups_pos := Nat.one_pos
  testGroups_pos := Nat.one_pos
  purgeGap_nonneg := by decide
  stepGroups_pos := Nat.one_pos

/-- Two days; a sample of the first lies inside the gap. -/
def twoDays : List ValidationSample :=
  [⟨"late", 95, "monday"⟩, ⟨"test", 100, "tuesday"⟩, ⟨"early", 5, "monday"⟩]

/-- A fold of one training and one test sample. -/
def tuesdayFold : WalkForwardFold where
  foldIndex := 0
  trainIds := ["early"]
  testIds := ["test"]
  purgeCutoff := 90
  testStart := 100
  testEnd := 100

theorem split_sound_twoDays : oneAndOne.split twoDays = .ok [tuesdayFold] ∧
    Sound oneAndOne twoDays tuesdayFold := by
  have hsplit : oneAndOne.split twoDays = .ok [tuesdayFold] := by decide +kernel
  exact ⟨hsplit, (split_sound oneAndOne twoDays [tuesdayFold] hsplit).1 tuesdayFold
    (List.mem_singleton_self _)⟩

end PurgedWalkForwardSplitter

end MarketPilot.Validation
