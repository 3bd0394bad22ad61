/-
# MarketPilot.Replay.Batch — replaying the manifests of a batch ledger

`emit_manifest` selects by the visibility it is given, `AVAILABLE` by default, and `replay` always checks
against the `OBSERVED` view.  Where a record was published by the replay time but seen later only, its
logical key has an available revision that was not observed, and the emitted manifest does not replay;
without such a record the two visibilities gate the same records.
-/
import MarketPilot.Ingest.PitLedger
import MarketPilot.Replay.Manifest

namespace MarketPilot.PointInTime

open MarketPilot.Python MarketPilot.Foundation MarketPilot.Snapshot PointInTimeLedger

section Visibility

variable {sha256 : String → String} {L : PointInTimeLedger sha256} {replayTime : Int}

/-- What was observed was available. -/
theorem available_of_observed (haware : AllAware L) {r : PointInTimeRecord}
    (hr : r ∈ L.storedRecords) (h : Gated .observed replayTime r) : Gated .available replayTime r := by
  have horder := after_of_verify (verified_of_stored hr)
  rw [after_of_aware (haware r hr).1 (haware r hr).2] at horder
  have hle : ¬ r.firstSeenAt.utc < r.publishedAt.utc := of_decide_eq_false (Except.ok.inj horder)
  have hseen : r.firstSeenAt.utc ≤ replayTime := h
  show r.publishedAt.utc ≤ replayTime
  omega

/-- **The two views agree exactly if everything available was observed.** -/
theorem view_available_eq_iff (haware : AllAware L) :
    (∀ r, r ∈ view L .available replayTime ↔ r ∈ view L .observed replayTime) ↔
      ∀ r ∈ L.storedRecords, Gated .available replayTime r → Gated .observed replayTime r := by
  constructor
  · intro hviews r hr havailable
    -- the available revision of this key was observed, and it was not seen before `r`
    obtain ⟨shown, hshown, -, hrank⟩ := exists_view hr havailable
    have hobserved : shown.firstSeenAt.utc ≤ replayTime :=
      (stored_of_view ((hviews shown).mp hshown)).2
    have hfirst : r.firstSeenAt.utc ≤ shown.firstSeenAt.utc := by
      by_contra hlt
      exact absurd (revisionOrder_lt_iff.mpr (Or.inl (not_le.mp hlt))) (not_lt.mpr hrank)
    show r.firstSeenAt.utc ≤ replayTime
    omega
  · intro hseen r
    have hgated : ∀ r, r ∈ gatedRecords L .available replayTime ↔
        r ∈ gatedRecords L .observed replayTime := by
      intro r
      rw [mem_gatedRecords, mem_gatedRecords]
      exact and_congr_right fun hr => ⟨hseen r hr, available_of_observed haware hr⟩
    rw [view, view, latestByKey_congr (gatedRecords_distinct L .available replayTime) hgated]

end Visibility

/-! ## Emitting and replaying -/

section Emit

variable {sha256 : String → String} {B : PitBatchLedger} {L : PointInTimeLedger sha256}
  {asOf : DateTime} {visibility : ReplayVisibility} {m : ReplayManifest}

/-- The manifest `emit_manifest` makes of the loaded records. -/
theorem emitManifest_ok (hload : B.intoLedger sha256 = .ok L)
    (hemit : B.emitManifest sha256 asOf visibility = .ok m) :
    asOfUtc asOf = .ok asOf.utc ∧ AllAware L ∧ m.asOf = atUtc asOf.utc ∧
      m.entries = (view L visibility asOf.utc).map entryOf ∧ m.verifyHash sha256 = .ok () := by
  rw [PitBatchLedger.emitManifest, hload, ok_bind] at hemit
  obtain ⟨visible, hvisible, hemit⟩ := ok_of_bind hemit
  obtain ⟨replayTime, hasOf, haware, rfl⟩ := visibleRecords_ok_iff.mp hvisible
  obtain rfl := (astimezoneUtc_ok_iff.mp hasOf).2.1
  rw [create_of_ascending _ (view_ascends L visibility asOf.utc)] at hemit
  obtain ⟨replayTime, hutc, hemit⟩ := ok_of_bind hemit
  obtain rfl := (astimezoneUtc_ok_iff.mp hutc).2.1
  obtain ⟨digest, hdigest, hemit⟩ := ok_of_bind hemit
  obtain rfl := Except.ok.inj hemit
  refine ⟨hasOf, haware, rfl, rfl, ?_⟩
  rw [ReplayManifest.verifyHash, hdigest, ok_bind, if_neg (not_not.mpr rfl)]
  rfl

/-- **An emitted manifest replays to the visible records exactly if it was emitted for what was observed,
or everything available at the replay time was observed by then.** -/
theorem emitted_manifest_replays_iff (hload : B.intoLedger sha256 = .ok L)
    (hemit : B.emitManifest sha256 asOf visibility = .ok m) :
    (∃ rs, L.replay m = .ok rs ∧ L.visibleRecords asOf visibility = .ok rs) ↔
      visibility = .observed ∨
        ∀ r ∈ L.storedRecords, r.publishedAt.utc ≤ asOf.utc → r.firstSeenAt.utc ≤ asOf.utc := by
  obtain ⟨hasOf, haware, hmasOf, hentries, hhash⟩ := emitManifest_ok hload hemit
  have hmutc : asOfUtc m.asOf = .ok asOf.utc := hmasOf ▸ asOfUtc_atUtc hasOf
  -- replay succeeds with the visible records exactly if these are the observed ones
  have hreplays : (∃ rs, L.replay m = .ok rs ∧ L.visibleRecords asOf visibility = .ok rs) ↔
      ∀ r, r ∈ view L visibility asOf.utc ↔ r ∈ view L .observed asOf.utc := by
    constructor
    · rintro ⟨rs, hrs, hvisible⟩
      rw [visibleRecords_of_aware hasOf haware] at hvisible
      obtain rfl := Except.ok.inj hvisible
      obtain ⟨-, replayTime, hmutc', -, -, hmem⟩ := replay_ok_iff.mp hrs
      obtain rfl := Except.ok.inj (hmutc.symm.trans hmutc')
      exact hmem
    · intro hviews
      exact ⟨_, replay_ok_iff.mpr ⟨hhash, _, hmutc, haware, hentries, hviews⟩,
        visibleRecords_of_aware hasOf haware visibility⟩
  rw [hreplays]
  cases visibility with
  | observed => simp
  | available =>
    rw [view_available_eq_iff haware]
    constructor
    · exact fun hseen => Or.inr hseen
    · rintro (h | hseen)
      · exact absurd h (by decide)
      · exact hseen

end Emit

/-! ## A quote pulled late -/

/-- A batch of one quote, from the file to the ledger and to a manifest. -/
theorem batch_single (sha256 : String → String) {r : PointInTimeRecord}
    (hverify : r.verify sha256 = .ok ()) (haware : r.Aware) {asOf : DateTime}
    (hasOf : asOfUtc asOf = .ok asOf.utc)
    (visibility : ReplayVisibility) :
    PitBatchLedger.append sha256 ⟨[]⟩ r = .ok ⟨[r]⟩ ∧
      (PitBatchLedger.mk [r]).intoLedger sha256 = .ok (empty.file r hverify) ∧
      ∃ m, (PitBatchLedger.mk [r]).emitManifest sha256 asOf visibility = .ok m := by
  have hload : (PitBatchLedger.mk [r]).load sha256 = .ok [r] := by
    refine mapM_ok_iff.mpr (List.Forall₂.cons ?_ List.Forall₂.nil)
    rw [hverify]
    rfl
  have hledger : (PitBatchLedger.mk [r]).intoLedger sha256 = .ok (empty.file r hverify) := by
    rw [PitBatchLedger.intoLedger, hload]
    exact (appendAll_fresh hverify rfl).2
  have hall : AllAware ((empty : PointInTimeLedger sha256).file r hverify) := by
    intro x hx
    rwa [(mem_stored_single hverify).mp hx]
  refine ⟨?_, hledger, ?_⟩
  · rw [PitBatchLedger.append, hverify]
    rfl
  · obtain ⟨digest, hdigest⟩ := manifestDigest_ok sha256 (atUtc asOf.utc)
      ((view (empty.file r hverify) visibility asOf.utc).map entryOf)
    have hutc : utc asOf "as_of" = .ok asOf.utc :=
      astimezoneUtc_ok_iff.mpr (astimezoneUtc_ok_iff.mp hasOf)
    rw [PitBatchLedger.emitManifest, hledger, ok_bind, visibleRecords_of_aware hasOf hall, ok_bind,
      create_of_ascending _ (view_ascends _ visibility asOf.utc), hutc, ok_bind, hdigest]
    exact ⟨_, rfl⟩

theorem emitted_manifest_replays_iff_quote :
    ∃ (r : PointInTimeRecord) (L : PointInTimeLedger id) (m : ReplayManifest),
      quoteRecord id 1 2 = .ok r ∧ (PitBatchLedger.mk [r]).intoLedger id = .ok L ∧
        (PitBatchLedger.mk [r]).emitManifest id (atUtc 3) .available = .ok m ∧
        ((∃ rs, L.replay m = .ok rs ∧ L.visibleRecords (atUtc 3) .available = .ok rs) ↔
          ReplayVisibility.available = .observed ∨ ∀ r ∈ L.storedRecords,
            r.publishedAt.utc ≤ (atUtc 3).utc → r.firstSeenAt.utc ≤ (atUtc 3).utc) := by
  obtain ⟨r, hr, hverify, -, hpublished, hfirst⟩ :=
    quoteRecord_ok id 1 2 (by omega) (by omega) (by decide)
  have haware : r.Aware := ⟨by rw [hpublished]; rfl, by rw [hfirst]; rfl⟩
  obtain ⟨-, hload, m, hemit⟩ :=
    batch_single id hverify haware (show asOfUtc (atUtc 3) = _ from rfl) .available
  exact ⟨r, _, m, hr, hload, hemit, emitted_manifest_replays_iff hload hemit⟩

/-- Published at 1 and pulled at 3: the manifest emitted for 2 does not replay. -/
theorem emitted_manifest_unreplayed :
    ∃ (r : PointInTimeRecord) (B : PitBatchLedger) (L : PointInTimeLedger id) (m : ReplayManifest),
      quoteRecord id 1 3 = .ok r ∧ PitBatchLedger.append id ⟨[]⟩ r = .ok B ∧
        B.intoLedger id = .ok L ∧ B.emitManifest id (atUtc 2) .available = .ok m ∧
          ¬ ∃ rs, L.replay m = .ok rs := by
  obtain ⟨r, hr, hverify, -, hpublished, hfirst⟩ :=
    quoteRecord_ok id 1 3 (by omega) (by omega) (by decide)
  have haware : r.Aware := ⟨by rw [hpublished]; rfl, by rw [hfirst]; rfl⟩
  obtain ⟨happend, hload, m, hemit⟩ :=
    batch_single id hverify haware (show asOfUtc (atUtc 2) = _ from rfl) .available
  obtain ⟨-, -, hmasOf, hentries, -⟩ := emitManifest_ok hload hemit
  refine ⟨r, _, _, m, hr, happend, hload, hemit, ?_⟩
  rintro ⟨rs, hrs⟩
  obtain ⟨-, replayTime, hmutc, -, hlist, hmem⟩ := replay_ok_iff.mp hrs
  obtain rfl := (astimezoneUtc_ok_iff.mp hmutc).2.1
  rw [hmasOf] at hmem
  have havailable : r ∈ view ((empty : PointInTimeLedger id).file r hverify) .available 2 := by
    refine (mem_view_single hverify).mpr ⟨rfl, ?_⟩
    show r.publishedAt.utc ≤ 2
    rw [hpublished]
    decide
  -- the manifest lists the quote, so it is among the replayed records, which were all observed
  have hlisted : entryOf r ∈ rs.map entryOf := by
    rw [← hlist, hentries]
    exact List.mem_map_of_mem havailable
  obtain ⟨x, hx, -⟩ := List.mem_map.mp hlisted
  have hgated := ((mem_view_single hverify).mp ((hmem x).mp hx)).2
  have hseen : r.firstSeenAt.utc ≤ (atUtc (atUtc 2).utc).utc := hgated
  rw [hfirst] at hseen
  exact absurd hseen (by decide)

end MarketPilot.PointInTime
