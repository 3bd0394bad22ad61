/-
# MarketPilot.Replay.Manifest — which manifests replay

`replay` checks the entries of a manifest one by one against the visible revisions and at the end compares
sets of logical keys.  So it accepts a manifest exactly if the hash is valid and the entries list the view
in some order, possibly repeatedly; that the entries are those of `build_manifest`, in its order, is never
checked.  It follows for the manifests whose entries ascend by logical key.
-/
import MarketPilot.Replay.Determinism

namespace MarketPilot.PointInTime

open MarketPilot.Python MarketPilot.Foundation MarketPilot.Json MarketPilot.Snapshot
  PointInTimeLedger

/-! ## The digest of a manifest -/

/-- Every manifest has a digest. -/
theorem manifestDigest_ok (sha256 : String → String) (asOf : DateTime)
    (entries : List ReplayManifestEntry) :
    ∃ digest, manifestDigest sha256 asOf entries = .ok digest := by
  have hentry : ∀ x ∈ entries.map entryPayload, ∃ v, encode x = .ok v := by
    intro x hx
    obtain ⟨entry, -, rfl⟩ := List.mem_map.mp hx
    refine encode_record_ok fun p hp => ?_
    simp only [List.mem_cons, List.not_mem_nil, or_false] at hp
    rcases hp with rfl | rfl | rfl <;> exact ⟨_, rfl⟩
  have hpayload : ∃ v, encode (record [("as_of", .datetime asOf),
      ("entries", .list (entries.map entryPayload))]) = .ok v := by
    refine encode_record_ok fun p hp => ?_
    simp only [List.mem_cons, List.not_mem_nil, or_false] at hp
    rcases hp with rfl | rfl
    · exact ⟨_, rfl⟩
    · exact encode_list_ok hentry
  obtain ⟨v, hv⟩ := hpayload
  rw [manifestDigest, freezeSnapshot, hv]
  exact ⟨_, rfl⟩

section Replay

variable {sha256 : String → String} {L : PointInTimeLedger sha256} {replayTime : Int}

/-! ## Building -/

theorem asOfUtc_atUtc {asOf : DateTime} (h : asOfUtc asOf = .ok replayTime) :
    asOfUtc (atUtc replayTime) = .ok replayTime := by
  obtain ⟨-, -, hrange⟩ := astimezoneUtc_ok_iff.mp h
  refine astimezoneUtc_ok_iff.mpr ⟨rfl, ?_, hrange⟩
  simp [atUtc, DateTime.utc]

/-- What `build_manifest` lists, and when it returns. -/
theorem buildManifest_entries_iff {asOf : DateTime} {entries : List ReplayManifestEntry} :
    (∃ b, L.buildManifest asOf = .ok b ∧ b.entries = entries) ↔
      ∃ replayTime, asOfUtc asOf = .ok replayTime ∧ AllAware L ∧
        entries = (view L .observed replayTime).map entryOf := by
  rw [buildManifest_eq]
  constructor
  · rintro ⟨b, hb, rfl⟩
    obtain ⟨replayTime, hasOf, hb⟩ := ok_of_bind hb
    obtain ⟨visible, hvisible, hb⟩ := ok_of_bind hb
    obtain ⟨replayTime', hasOf', haware, rfl⟩ := visibleRecords_ok_iff.mp hvisible
    obtain rfl := Except.ok.inj ((asOfUtc_atUtc hasOf).symm.trans hasOf')
    rw [create_of_ascending _ (view_ascends L .observed replayTime)] at hb
    obtain ⟨_, -, hb⟩ := ok_of_bind hb
    obtain ⟨_, -, hb⟩ := ok_of_bind hb
    rw [← Except.ok.inj hb]
    exact ⟨replayTime, hasOf, haware, rfl⟩
  · rintro ⟨replayTime, hasOf, haware, rfl⟩
    obtain ⟨digest, hdigest⟩ := manifestDigest_ok sha256 (atUtc replayTime)
      ((view L .observed replayTime).map entryOf)
    have hutc : utc (atUtc replayTime) "as_of" = .ok replayTime :=
      astimezoneUtc_ok_iff.mpr (astimezoneUtc_ok_iff.mp (asOfUtc_atUtc hasOf))
    refine ⟨⟨atUtc replayTime, (view L .observed replayTime).map entryOf, digest⟩, ?_, rfl⟩
    rw [hasOf, ok_bind, manifestAt, visibleRecords_of_aware (asOfUtc_atUtc hasOf) haware, ok_bind,
      create_of_ascending _ (view_ascends L .observed replayTime), hutc, ok_bind, hdigest]
    rfl

/-! ## Replaying -/

/-- The visible revisions by logical key are the view. -/
theorem byLogicalKey_view {k : String} {r : PointInTimeRecord} :
    (byLogicalKey (view L .observed replayTime)).get? k = some r ↔
      r ∈ view L .observed replayTime ∧ r.logicalKey = k := by
  have hnodup : ((view L .observed replayTime).map PointInTimeRecord.logicalKey).Nodup :=
    (view_ascends L .observed replayTime).imp fun h => ne_of_lt h
  rw [Dict.get?_eq_some_iff, byLogicalKey, entries_foldl_set _ hnodup, List.mem_map]
  constructor
  · rintro ⟨r', hr', heq⟩
    obtain ⟨rfl, rfl⟩ := Prod.mk.inj heq
    exact ⟨hr', rfl⟩
  · rintro ⟨hr, rfl⟩
    exact ⟨r, hr, rfl⟩

theorem mem_keys_byLogicalKey {k : String} :
    k ∈ (byLogicalKey (view L .observed replayTime)).keys ↔
      ∃ r ∈ view L .observed replayTime, r.logicalKey = k := by
  rw [← not_iff_not, ← Dict.get?_eq_none_iff, Option.eq_none_iff_forall_ne_some]
  simp only [ne_eq, byLogicalKey_view, not_exists, not_and]

theorem stored_of_view {r : PointInTimeRecord} (h : r ∈ view L .observed replayTime) :
    r ∈ L.storedRecords ∧ r.firstSeenAt.utc ≤ replayTime :=
  mem_gatedRecords.mp (mem_view.mp h).1

/-- **One entry replays to the visible revision it lists.** -/
theorem replayEntry_ok_iff (haware : AllAware L) {entry : ReplayManifestEntry}
    {r : PointInTimeRecord} :
    L.replayEntry replayTime (byLogicalKey (view L .observed replayTime)) entry = .ok r ↔
      r ∈ view L .observed replayTime ∧ entry = entryOf r := by
  unfold replayEntry
  constructor
  · intro h
    cases hget : L.get entry.recordId with
    | none =>
      rw [hget] at h
      exact absurd h (by simp)
    | some stored =>
      rw [hget] at h
      obtain ⟨_, -, h⟩ := ok_of_bind h
      obtain ⟨late, -, h⟩ := ok_of_bind h
      dsimp only at h
      split at h
      · exact absurd h (by simp)
      split at h
      · exact absurd h (by simp)
      rename_i hhash
      split at h
      · exact absurd h (by simp)
      rename_i hkey
      split at h
      · exact absurd h (by simp)
      rename_i hselected
      obtain rfl := Except.ok.inj h
      obtain ⟨expected, hexpected, hsame⟩ := (Option.any_eq_true _ _).mp (by simpa using hselected)
      obtain ⟨hview, -⟩ := byLogicalKey_view.mp hexpected
      have hid := get_recordId hget
      -- one identity is one record of the ledger
      have hequal : expected = stored := by
        refine eq_of_recordId (stored_of_view hview).1
          (mem_storedRecords.mpr (by rwa [hid])) ?_
        show expected.normalized.recordId = stored.normalized.recordId
        rw [same_iff_normalized.mp hsame]
      refine ⟨hequal ▸ hview, ?_⟩
      show _ = (⟨stored.logicalKey, stored.recordId, stored.contentHash⟩ : ReplayManifestEntry)
      rw [hid, not_not.mp hhash, not_not.mp hkey]
  · rintro ⟨hview, rfl⟩
    obtain ⟨hstored, hseen⟩ := stored_of_view hview
    have hget : L.get (entryOf r).recordId = some r := mem_storedRecords.mp hstored
    have hafter : r.firstSeenAt.after (atUtc replayTime) = .ok false := by
      rw [after_of_aware (haware r hstored).2 (by rfl)]
      have hutc : (atUtc replayTime).utc = replayTime := by simp [atUtc, DateTime.utc]
      rw [hutc, decide_eq_false (not_lt.mpr hseen)]
    have hexpected : (byLogicalKey (view L .observed replayTime)).get? (entryOf r).logicalKey =
        some r := byLogicalKey_view.mpr ⟨hview, rfl⟩
    have hself : r.same r = true := same_iff_normalized.mpr rfl
    rw [hget]
    show (r.verify sha256 >>= fun _ => _) = _
    rw [verified_of_stored hstored, ok_bind, hafter, ok_bind, hexpected]
    simp [entryOf, hself]

/-- **What `replay` returns, and for which manifests.** -/
theorem replay_ok_iff {m : ReplayManifest} {rs : List PointInTimeRecord} :
    L.replay m = .ok rs ↔ m.verifyHash sha256 = .ok () ∧
      ∃ replayTime, asOfUtc m.asOf = .ok replayTime ∧ AllAware L ∧
        m.entries = rs.map entryOf ∧ ∀ r, r ∈ rs ↔ r ∈ view L .observed replayTime := by
  have hentries : ∀ {replayTime : Int}, AllAware L →
      (m.entries.mapM (L.replayEntry replayTime (byLogicalKey (view L .observed replayTime))) =
        .ok rs ↔ m.entries = rs.map entryOf ∧ ∀ r ∈ rs, r ∈ view L .observed replayTime) := by
    intro replayTime haware
    rw [mapM_ok_iff]
    simp only [replayEntry_ok_iff haware]
    generalize m.entries = entries
    constructor
    · intro h
      induction h with
      | nil => exact ⟨rfl, fun _ h => absurd h List.not_mem_nil⟩
      | cons hr _ ih =>
        rw [List.map_cons, ← hr.2, ih.1]
        exact ⟨rfl, List.forall_mem_cons.mpr ⟨hr.1, ih.2⟩⟩
    · rintro ⟨rfl, hall⟩
      rw [List.forall₂_map_left_iff, List.forall₂_same]
      exact fun r hr => ⟨hall r hr, rfl⟩
  -- one revision a key: equal key sets mean that list and view have the same revisions
  have hlisted : ∀ {replayTime : Int}, m.entries = rs.map entryOf →
      (∀ r ∈ rs, r ∈ view L .observed replayTime) →
      ((m.entries.map ReplayManifestEntry.logicalKey ⊆
          (byLogicalKey (view L .observed replayTime)).keys ∧
        (byLogicalKey (view L .observed replayTime)).keys ⊆
          m.entries.map ReplayManifestEntry.logicalKey) ↔
        ∀ r ∈ view L .observed replayTime, r ∈ rs) := by
    intro replayTime hlist hall
    have hkeys : m.entries.map ReplayManifestEntry.logicalKey =
        rs.map PointInTimeRecord.logicalKey := by
      rw [hlist, List.map_map]
      exact List.map_congr_left fun r _ => rfl
    rw [hkeys]
    constructor
    · rintro ⟨-, hcover⟩ r hr
      obtain ⟨r', hr', hkey⟩ := List.mem_map.mp (hcover (mem_keys_byLogicalKey.mpr ⟨r, hr, rfl⟩))
      have hget := byLogicalKey_view.mpr ⟨hall r' hr', hkey⟩
      rw [byLogicalKey_view.mpr ⟨hr, rfl⟩] at hget
      rwa [Option.some.inj hget]
    · intro hback
      constructor
      · intro k hk
        obtain ⟨r, hr, rfl⟩ := List.mem_map.mp hk
        exact mem_keys_byLogicalKey.mpr ⟨r, hall r hr, rfl⟩
      · intro k hk
        obtain ⟨r, hr, rfl⟩ := mem_keys_byLogicalKey.mp hk
        exact List.mem_map_of_mem (hback r hr)
  unfold replay
  constructor
  · intro h
    obtain ⟨_, hhash, h⟩ := ok_of_bind h
    obtain ⟨replayTime, hasOf, h⟩ := ok_of_bind h
    obtain ⟨visible, hvisible, h⟩ := ok_of_bind h
    obtain ⟨replayTime', hasOf', haware, rfl⟩ := visibleRecords_ok_iff.mp hvisible
    obtain rfl := Except.ok.inj ((asOfUtc_atUtc hasOf).symm.trans hasOf')
    obtain ⟨replayed, hreplayed, h⟩ := ok_of_bind h
    dsimp only at h
    split at h
    · exact absurd h (by simp)
    · rename_i hcover
      obtain rfl := Except.ok.inj h
      obtain ⟨hlist, hall⟩ := (hentries haware).mp hreplayed
      have hback := (hlisted hlist hall).mp (not_not.mp hcover)
      exact ⟨hhash, replayTime, hasOf, haware, hlist, fun r => ⟨hall r, hback r⟩⟩
  · rintro ⟨hhash, replayTime, hasOf, haware, hlist, hmem⟩
    have hall : ∀ r ∈ rs, r ∈ view L .observed replayTime := fun r => (hmem r).mp
    rw [hhash, ok_bind, hasOf, ok_bind, visibleRecords_of_aware (asOfUtc_atUtc hasOf) haware, ok_bind]
    show (m.entries.mapM _ >>= fun replayed => _) = _
    rw [(hentries haware).mpr ⟨hlist, hall⟩, ok_bind,
      if_neg (not_not.mpr ((hlisted hlist hall).mpr fun r => (hmem r).mpr))]
    rfl

/-! ## Accepting exactly the view -/

/-- `replay` accepts a manifest exactly if it is the manifest of the view, and then returns the view. -/
def AcceptsExactlyView (L : PointInTimeLedger sha256) (m : ReplayManifest) : Prop :=
  ((∃ rs, L.replay m = .ok rs) ↔ m.verifyHash sha256 = .ok () ∧
    ∃ b, L.buildManifest m.asOf = .ok b ∧ b.entries = m.entries) ∧
  ∀ rs, L.replay m = .ok rs → L.visibleRecords m.asOf .observed = .ok rs

/-- The hash is valid, the replay time and all records are aware, and the entries are those of the visible
revisions, in whatever order and number. -/
def ListsView (L : PointInTimeLedger sha256) (m : ReplayManifest) : Prop :=
  m.verifyHash sha256 = .ok () ∧ (∃ replayTime, asOfUtc m.asOf = .ok replayTime) ∧ AllAware L ∧
    ∀ entry, entry ∈ m.entries ↔ ∃ r, IsVisible L .observed m.asOf.utc r ∧ entry = entryOf r

/-- The entries ascend by logical key. -/
def KeysAscend (m : ReplayManifest) : Prop :=
  (m.entries.map ReplayManifestEntry.logicalKey).Pairwise (· < ·)

theorem map_logicalKey_entryOf (rs : List PointInTimeRecord) :
    (rs.map entryOf).map ReplayManifestEntry.logicalKey = rs.map PointInTimeRecord.logicalKey := by
  rw [List.map_map]
  exact List.map_congr_left fun r _ => rfl

/-- **`replay` accepts the manifests that list the view.** -/
theorem replay_accepts_iff {m : ReplayManifest} : (∃ rs, L.replay m = .ok rs) ↔ ListsView L m := by
  constructor
  · rintro ⟨rs, hrs⟩
    obtain ⟨hhash, replayTime, hasOf, haware, hlist, hmem⟩ := replay_ok_iff.mp hrs
    obtain rfl := (astimezoneUtc_ok_iff.mp hasOf).2.1
    refine ⟨hhash, ⟨_, hasOf⟩, haware, fun entry => ?_⟩
    rw [hlist, List.mem_map]
    constructor
    · rintro ⟨r, hr, rfl⟩
      exact ⟨r, mem_view.mp ((hmem r).mp hr), rfl⟩
    · rintro ⟨r, hr, rfl⟩
      exact ⟨r, (hmem r).mpr (mem_view.mpr hr), rfl⟩
  · rintro ⟨hhash, ⟨replayTime, hasOf⟩, haware, hlist⟩
    obtain rfl := (astimezoneUtc_ok_iff.mp hasOf).2.1
    -- the record of each entry, looked up by its logical key in the view
    have hrecords : ∀ entries : List ReplayManifestEntry,
        (∀ entry ∈ entries, ∃ r ∈ view L .observed m.asOf.utc, entry = entryOf r) →
          ∃ rs : List PointInTimeRecord, entries = rs.map entryOf ∧
            ∀ r ∈ rs, r ∈ view L .observed m.asOf.utc := by
      intro entries
      induction entries with
      | nil => exact fun _ => ⟨[], rfl, fun _ h => absurd h List.not_mem_nil⟩
      | cons entry entries ih =>
        intro h
        obtain ⟨⟨r, hr, rfl⟩, hentries⟩ := List.forall_mem_cons.mp h
        obtain ⟨rs, rfl, hrs⟩ := ih hentries
        exact ⟨r :: rs, rfl, List.forall_mem_cons.mpr ⟨hr, hrs⟩⟩
    obtain ⟨rs, hentries, hall⟩ := hrecords m.entries fun entry hentry => by
      obtain ⟨r, hr, heq⟩ := (hlist entry).mp hentry
      exact ⟨r, mem_view.mpr hr, heq⟩
    refine ⟨rs, replay_ok_iff.mpr ⟨hhash, _, hasOf, haware, hentries, fun r => ⟨hall r, ?_⟩⟩⟩
    intro hr
    have hentry := (hlist (entryOf r)).mpr ⟨r, mem_view.mp hr, rfl⟩
    rw [hentries] at hentry
    obtain ⟨r', hr', heq⟩ := List.mem_map.mp hentry
    have hid : r'.recordId = r.recordId := congrArg ReplayManifestEntry.recordId heq
    rwa [← eq_of_recordId (stored_of_view (hall r' hr')).1 (stored_of_view hr).1 hid]

/-- **Replay accepts exactly the view, but for the manifests that list the view out of order or
repeatedly.** -/
theorem accepts_exactly_view_iff (L : PointInTimeLedger sha256) (m : ReplayManifest) :
    AcceptsExactlyView L m ↔ (ListsView L m → KeysAscend m) := by
  have hbuilt : ∀ {entries : List ReplayManifestEntry} {replayTime : Int},
      entries = (view L .observed replayTime).map entryOf →
        (entries.map ReplayManifestEntry.logicalKey).Pairwise (· < ·) := by
    rintro _ replayTime rfl
    rw [map_logicalKey_entryOf]
    exact view_ascends L .observed replayTime
  constructor
  · rintro ⟨haccepts, -⟩ hlists
    obtain ⟨-, b, hb, hentries⟩ := haccepts.mp (replay_accepts_iff.mpr hlists)
    obtain ⟨replayTime, -, -, hview⟩ := buildManifest_entries_iff.mp ⟨b, hb, hentries⟩
    exact hbuilt hview
  · intro hascend
    have hreplayed : ∀ rs, L.replay m = .ok rs → ∃ replayTime, asOfUtc m.asOf = .ok replayTime ∧
        AllAware L ∧ m.entries = rs.map entryOf ∧ rs = view L .observed replayTime := by
      intro rs hrs
      obtain ⟨-, replayTime, hasOf, haware, hlist, hmem⟩ := replay_ok_iff.mp hrs
      have hkeys := hascend (replay_accepts_iff.mp ⟨rs, hrs⟩)
      rw [KeysAscend, hlist, map_logicalKey_entryOf] at hkeys
      exact ⟨replayTime, hasOf, haware, hlist, eq_of_keys_ascend PointInTimeRecord.logicalKey hkeys
        (view_ascends L .observed replayTime) hmem⟩
    refine ⟨⟨?_, ?_⟩, ?_⟩
    · rintro ⟨rs, hrs⟩
      obtain ⟨replayTime, hasOf, haware, hlist, rfl⟩ := hreplayed rs hrs
      exact ⟨(replay_ok_iff.mp hrs).1,
        buildManifest_entries_iff.mpr ⟨replayTime, hasOf, haware, hlist⟩⟩
    · rintro ⟨hhash, hb⟩
      obtain ⟨replayTime, hasOf, haware, hlist⟩ := buildManifest_entries_iff.mp hb
      exact ⟨_, replay_ok_iff.mpr ⟨hhash, replayTime, hasOf, haware, hlist, fun r => Iff.rfl⟩⟩
    · intro rs hrs
      obtain ⟨replayTime, hasOf, haware, -, rfl⟩ := hreplayed rs hrs
      exact visibleRecords_of_aware hasOf haware .observed

end Replay

/-! ## A repeated entry -/

/-- A ledger of one aware record that was seen by the replay time shows it. -/
theorem mem_view_single {sha256 : String → String} {r x : PointInTimeRecord}
    {visibility : ReplayVisibility} {replayTime : Int} (h : r.verify sha256 = .ok ()) :
    x ∈ view (empty.file r h) visibility replayTime ↔ x = r ∧ Gated visibility replayTime r := by
  have hgated : ∀ y, y ∈ gatedRecords (empty.file r h) visibility replayTime ↔
      y = r ∧ Gated visibility replayTime r := by
    intro y
    rw [mem_gatedRecords, mem_stored_single]
    constructor
    · rintro ⟨rfl, hy⟩
      exact ⟨rfl, hy⟩
    · rintro ⟨rfl, hr⟩
      exact ⟨rfl, hr⟩
  rw [mem_view]
  constructor
  · rintro ⟨hx, -⟩
    exact (hgated x).mp hx
  · rintro ⟨rfl, hr⟩
    refine ⟨(hgated x).mpr ⟨rfl, hr⟩, fun y hy _ => ?_⟩
    rw [((hgated y).mp hy).1]

/-- A quote listed twice under a valid hash replays; the view lists it once. -/
theorem repeated_entry_replays :
    ∃ (r : PointInTimeRecord) (L : PointInTimeLedger id) (m : ReplayManifest),
      quoteRecord id 1 2 = .ok r ∧ empty.append r = .ok L ∧ m.asOf = atUtc 3 ∧
        m.entries = [entryOf r, entryOf r] ∧ m.verifyHash id = .ok () ∧
          (∃ rs, L.replay m = .ok rs) ∧ ¬ AcceptsExactlyView L m := by
  obtain ⟨r, hr, hverify, -, hpublished, hfirst⟩ :=
    quoteRecord_ok id 1 2 (by omega) (by omega) (by decide)
  obtain ⟨digest, hdigest⟩ := manifestDigest_ok id (atUtc 3) [entryOf r, entryOf r]
  have hhash : (ReplayManifest.mk (atUtc 3) [entryOf r, entryOf r] digest).verifyHash id = .ok () := by
    rw [ReplayManifest.verifyHash, hdigest, ok_bind, if_neg (not_not.mpr rfl)]
    rfl
  have happend := (appendAll_fresh (L := (empty : PointInTimeLedger id)) hverify rfl).1
  have haware : AllAware ((empty : PointInTimeLedger id).file r hverify) := by
    intro x hx
    rw [(mem_stored_single hverify).mp hx]
    exact ⟨by rw [hpublished]; rfl, by rw [hfirst]; rfl⟩
  have hgated : Gated .observed 3 r := by
    show r.firstSeenAt.utc ≤ 3
    rw [hfirst]
    decide
  have hreplay : (empty.file r hverify).replay ⟨atUtc 3, [entryOf r, entryOf r], digest⟩ =
      .ok [r, r] := by
    refine replay_ok_iff.mpr ⟨hhash, 3, rfl, haware, rfl, fun x => ?_⟩
    rw [mem_view_single hverify]
    simp [hgated]
  refine ⟨r, _, _, hr, happend, rfl, rfl, hhash, ⟨_, hreplay⟩, fun haccepts => ?_⟩
  obtain ⟨replayTime, -, -, hview⟩ :=
    buildManifest_entries_iff.mp (haccepts.1.mp ⟨_, hreplay⟩).2
  have hkeys := view_ascends (empty.file r hverify) .observed replayTime
  rw [← map_logicalKey_entryOf, ← hview] at hkeys
  exact absurd ((List.pairwise_cons.mp hkeys).1 _ (by simp)) (lt_irrefl _)

end MarketPilot.PointInTime
