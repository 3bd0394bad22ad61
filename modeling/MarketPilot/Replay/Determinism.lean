/-
# MarketPilot.Replay.Determinism — the view does not depend on order or on later records

What a ledger holds after appending records is, up to Python's equality, the set of these records.  With
the view a function of the gated records this gives all three laws: any order of appending shows the same
view and the same manifest; records that become visible only later change neither; and the view holds
exactly one record for each logical key with a gated record, the latest revision.
-/
import MarketPilot.PointInTime.Verification
import MarketPilot.Replay.View

namespace MarketPilot.PointInTime

open MarketPilot.Python MarketPilot.Foundation MarketPilot.Snapshot PointInTimeLedger

variable {sha256 : String → String}

/-! ## Appending -/

section Appending

variable {L L' : PointInTimeLedger sha256} {r : PointInTimeRecord}

theorem get_file (h : r.verify sha256 = .ok ()) (recordId : String) :
    (L.file r h).get recordId = if recordId = r.recordId then some r else L.get recordId :=
  Dict.get?_set L.records r.recordId recordId r

/-- What `append` checks and does. -/
theorem append_ok_iff : L.append r = .ok L' ↔ ∃ h : r.verify sha256 = .ok (),
    (∀ existing, L.get r.recordId = some existing → existing.normalized = r.normalized) ∧
      L' = L.file r h := by
  have hcollision : (L.records.get? r.recordId).any (fun existing => !existing.same r) = false ↔
      ∀ existing, L.get r.recordId = some existing → existing.normalized = r.normalized := by
    show (L.get r.recordId).any (fun existing => !existing.same r) = false ↔ _
    cases L.get r.recordId with
    | none => simp
    | some existing => simp [same_iff_normalized]
  unfold append
  split
  · rename_i x hx
    constructor
    · intro h
      exact absurd h (by simp)
    · rintro ⟨h, -⟩
      exact absurd (hx.symm.trans h) (by simp)
  · rename_i hverify
    split
    · rename_i hbad
      constructor
      · intro h
        exact absurd h (by simp)
      · rintro ⟨-, hsame, -⟩
        exact absurd (hcollision.mpr hsame) (by simp [hbad])
    · rename_i hgood
      have hsame := hcollision.mp (Bool.eq_false_of_not_eq_true hgood)
      constructor
      · intro h
        exact ⟨hverify, hsame, (Except.ok.inj h).symm⟩
      · rintro ⟨-, -, rfl⟩
        rfl

/-- What a ledger holds after records were appended to `base`. -/
structure Holds (base : List PointInTimeRecord) (seen : List PointInTimeRecord)
    (L : PointInTimeLedger sha256) : Prop where
  stored : ∀ r ∈ L.storedRecords, r ∈ base ++ seen
  holds : ∀ r ∈ base ++ seen, ∃ r', L.get r.recordId = some r' ∧ r'.normalized = r.normalized

theorem holds_append {base seen : List PointInTimeRecord} (h : Holds base seen L)
    (happend : L.append r = .ok L') : Holds base (seen ++ [r]) L' := by
  obtain ⟨hverify, hsame, rfl⟩ := append_ok_iff.mp happend
  constructor
  · intro x hx
    rw [mem_storedRecords, get_file] at hx
    rw [← List.append_assoc, List.mem_append, List.mem_singleton]
    split at hx
    · exact Or.inr (Option.some.inj hx).symm
    · exact Or.inl (h.stored x (mem_storedRecords.mpr hx))
  · intro x hx
    rw [get_file]
    rw [← List.append_assoc, List.mem_append, List.mem_singleton] at hx
    split
    · rename_i hid
      refine ⟨r, rfl, ?_⟩
      rcases hx with hx | rfl
      · -- an earlier record of the same id is the existing one, up to equality
        obtain ⟨existing, hget, hnormal⟩ := h.holds x hx
        rw [hid] at hget
        exact (hsame existing hget).symm.trans hnormal
      · rfl
    · rename_i hid
      rcases hx with hx | rfl
      · exact h.holds x hx
      · exact absurd rfl hid

theorem holds_appendAll {rs : List PointInTimeRecord} (h : L.appendAll rs = .ok L') :
    Holds L.storedRecords rs L' := by
  refine loop_invariant (I := fun past M => Holds L.storedRecords past M)
    (fun past M x M' hI hstep => holds_append hI hstep) ⟨?_, ?_⟩ h
  · intro r hr
    rwa [List.append_nil]
  · intro r hr
    rw [List.append_nil] at hr
    exact ⟨r, mem_storedRecords.mp hr, rfl⟩

/-- No two records claim one id with different contents. -/
def Consistent (rs : List PointInTimeRecord) : Prop :=
  ∀ a ∈ rs, ∀ b ∈ rs, a.recordId = b.recordId → a.normalized = b.normalized

/-- Appending succeeds for verified records that are consistent with those held. -/
theorem appendAll_of_consistent : ∀ {rs : List PointInTimeRecord} {L : PointInTimeLedger sha256},
    (∀ r ∈ rs, r.verify sha256 = .ok ()) → Consistent (L.storedRecords ++ rs) →
      ∃ L', L.appendAll rs = .ok L' := by
  intro rs
  induction rs with
  | nil => exact fun {L} _ _ => ⟨L, rfl⟩
  | cons r rs ih =>
    intro L hverified hconsistent
    have hverify := hverified r List.mem_cons_self
    have happend : L.append r = .ok (L.file r hverify) := by
      refine append_ok_iff.mpr ⟨hverify, fun existing hget => ?_, rfl⟩
      have hstored : existing ∈ L.storedRecords :=
        mem_storedRecords.mpr (by rwa [get_recordId hget])
      exact hconsistent existing (List.mem_append_left _ hstored) r (by simp) (get_recordId hget)
    have hholds : Holds L.storedRecords [] L :=
      ⟨by simp, fun x hx => ⟨x, mem_storedRecords.mp (by simpa using hx), rfl⟩⟩
    obtain ⟨L', hL'⟩ := ih (L := L.file r hverify)
      (fun x hx => hverified x (List.mem_cons_of_mem r hx)) (by
        have hstored := (holds_append hholds happend).stored
        intro a ha b hb hid
        refine hconsistent a ?_ b ?_ hid
        · rcases List.mem_append.mp ha with ha | ha
          · have := hstored a ha
            simp only [List.nil_append, List.mem_append, List.mem_cons] at this ⊢
            tauto
          · simp [ha]
        · rcases List.mem_append.mp hb with hb | hb
          · have := hstored b hb
            simp only [List.nil_append, List.mem_append, List.mem_cons] at this ⊢
            tauto
          · simp [hb])
    exact ⟨L', by rw [appendAll, List.foldlM_cons, happend, ok_bind]; exact hL'⟩

/-- Records that were appended verify, and are consistent. -/
theorem consistent_of_appendAll {rs : List PointInTimeRecord} (h : L.appendAll rs = .ok L') :
    (∀ r ∈ rs, r.verify sha256 = .ok ()) ∧ Consistent rs := by
  constructor
  · refine loop_invariant (I := fun past _ => ∀ r ∈ past, r.verify sha256 = .ok ())
      (fun past M x M' hI hstep r hr => ?_) (fun r hr => absurd hr List.not_mem_nil) h
    rcases List.mem_append.mp hr with hr | hr
    · exact hI r hr
    · rw [List.mem_singleton.mp hr]
      exact (append_ok_iff.mp hstep).1
  · intro a ha b hb hid
    have hholds := (holds_appendAll h).holds
    obtain ⟨x, hx, hxa⟩ := hholds a (List.mem_append_right _ ha)
    obtain ⟨y, hy, hyb⟩ := hholds b (List.mem_append_right _ hb)
    rw [hid, hy] at hx
    rw [← hxa, ← hyb, Option.some.inj hx]

end Appending

/-! ## Ledgers with one content -/

section Content

variable {L₁ L₂ : PointInTimeLedger sha256} {visibility : ReplayVisibility} {replayTime : Int}

/-- Two ledgers hold the same records, up to Python's equality. -/
def SameContent (L₁ L₂ : PointInTimeLedger sha256) : Prop :=
  ∀ x, x ∈ L₁.storedRecords.map PointInTimeRecord.normalized ↔
    x ∈ L₂.storedRecords.map PointInTimeRecord.normalized

theorem SameContent.symm (h : SameContent L₁ L₂) : SameContent L₂ L₁ := fun x => (h x).symm

/-- What a fresh ledger holds after appending is what was appended. -/
theorem stored_iff_appended {rs : List PointInTimeRecord}
    (h : (empty : PointInTimeLedger sha256).appendAll rs = .ok L₁) {x : PointInTimeRecord} :
    x ∈ L₁.storedRecords.map PointInTimeRecord.normalized ↔
      x ∈ rs.map PointInTimeRecord.normalized := by
  obtain ⟨hstored, hholds⟩ := holds_appendAll h
  rw [show (empty : PointInTimeLedger sha256).storedRecords = [] from rfl, List.nil_append] at *
  constructor
  · intro hx
    obtain ⟨r, hr, rfl⟩ := List.mem_map.mp hx
    exact List.mem_map_of_mem (hstored r hr)
  · intro hx
    obtain ⟨r, hr, rfl⟩ := List.mem_map.mp hx
    obtain ⟨r', hget, hnormal⟩ := hholds r hr
    rw [← hnormal]
    exact List.mem_map_of_mem (mem_storedRecords.mpr (by rwa [get_recordId hget]))

theorem aware_normalized {r : PointInTimeRecord} : r.normalized.Aware ↔ r.Aware := by
  unfold PointInTimeRecord.Aware PointInTimeRecord.normalized
  rw [isSome_normalizedTime, isSome_normalizedTime]

theorem revisionOrder_normalized (r : PointInTimeRecord) :
    revisionOrder r.normalized = revisionOrder r := by
  simp only [revisionOrder, PointInTimeRecord.normalized, utc_normalizedTime]

theorem gated_normalized {r : PointInTimeRecord} :
    Gated visibility replayTime r.normalized ↔ Gated visibility replayTime r := by
  unfold Gated visibleAt PointInTimeRecord.normalized
  split <;> rw [utc_normalizedTime]

theorem allAware_of_sameContent (h : SameContent L₁ L₂) (haware : AllAware L₁) : AllAware L₂ := by
  intro r hr
  obtain ⟨r', hr', hnormal⟩ := List.mem_map.mp ((h _).mpr (List.mem_map_of_mem hr))
  rw [← aware_normalized, ← hnormal, aware_normalized]
  exact haware r' hr'

theorem mem_gated_normalized {x : PointInTimeRecord} :
    x ∈ (gatedRecords L₁ visibility replayTime).map PointInTimeRecord.normalized ↔
      x ∈ L₁.storedRecords.map PointInTimeRecord.normalized ∧ Gated visibility replayTime x := by
  constructor
  · intro hx
    obtain ⟨r, hr, rfl⟩ := List.mem_map.mp hx
    obtain ⟨hstored, hgated⟩ := mem_gatedRecords.mp hr
    exact ⟨List.mem_map_of_mem hstored, gated_normalized.mpr hgated⟩
  · rintro ⟨hx, hgated⟩
    obtain ⟨r, hr, rfl⟩ := List.mem_map.mp hx
    exact List.mem_map_of_mem (mem_gatedRecords.mpr ⟨hr, gated_normalized.mp hgated⟩)

theorem normalized_distinct : DistinctRanks PointInTimeRecord.logicalKey revisionOrder
    ((gatedRecords L₁ visibility replayTime).map PointInTimeRecord.normalized) := by
  intro x hx y hy _ hrank
  obtain ⟨a, ha, rfl⟩ := List.mem_map.mp hx
  obtain ⟨b, hb, rfl⟩ := List.mem_map.mp hy
  rw [revisionOrder_normalized, revisionOrder_normalized] at hrank
  rw [eq_of_recordId (mem_gatedRecords.mp ha).1 (mem_gatedRecords.mp hb).1
    (recordId_of_revisionOrder hrank)]

/-- The view in UTC is the selection from the records in UTC. -/
theorem view_normalized (L : PointInTimeLedger sha256) (visibility : ReplayVisibility)
    (replayTime : Int) : (view L visibility replayTime).map PointInTimeRecord.normalized =
      latestByKey PointInTimeRecord.logicalKey revisionOrder
        ((gatedRecords L visibility replayTime).map PointInTimeRecord.normalized) :=
  (latestByKey_map PointInTimeRecord.normalized (fun _ => rfl) revisionOrder_normalized
    (gatedRecords_distinct L visibility replayTime) normalized_distinct).symm

/-- **Ledgers with one content show one view.** -/
theorem view_of_sameContent (h : SameContent L₁ L₂) (visibility : ReplayVisibility)
    (replayTime : Int) : (view L₁ visibility replayTime).map PointInTimeRecord.normalized =
      (view L₂ visibility replayTime).map PointInTimeRecord.normalized := by
  rw [view_normalized, view_normalized]
  refine latestByKey_congr normalized_distinct fun x => ?_
  rw [mem_gated_normalized, mem_gated_normalized, h x]

theorem visibleRecords_of_sameContent (h : SameContent L₁ L₂) (asOf : DateTime)
    (visibility : ReplayVisibility) :
    (L₁.visibleRecords asOf visibility).map (List.map PointInTimeRecord.normalized) =
      (L₂.visibleRecords asOf visibility).map (List.map PointInTimeRecord.normalized) := by
  cases hasOf : asOfUtc asOf with
  | error x => rw [visibleRecords_of_error hasOf, visibleRecords_of_error hasOf]
  | ok replayTime =>
    by_cases haware : AllAware L₁
    · rw [visibleRecords_of_aware hasOf haware,
        visibleRecords_of_aware hasOf (allAware_of_sameContent h haware)]
      exact congrArg Except.ok (view_of_sameContent h visibility replayTime)
    · rw [visibleRecords_of_naive hasOf haware,
        visibleRecords_of_naive hasOf fun hall => haware (allAware_of_sameContent h.symm hall)]

/-! ## Manifests -/

/-- The manifest of what a visibility shows at a replay time. -/
def manifestAt (L : PointInTimeLedger sha256) (asOf : DateTime) (visibility : ReplayVisibility) :
    Except Exc ReplayManifest := do
  let visible ← L.visibleRecords asOf visibility
  ReplayManifest.create sha256 asOf visible

theorem buildManifest_eq (L : PointInTimeLedger sha256) (asOf : DateTime) :
    L.buildManifest asOf =
      asOfUtc asOf >>= fun replayTime => manifestAt L (atUtc replayTime) .observed := rfl

/-- The manifest of records in key order lists them as they are. -/
theorem create_of_ascending {rs : List PointInTimeRecord} (asOf : DateTime)
    (h : (rs.map PointInTimeRecord.logicalKey).Pairwise (· < ·)) :
    ReplayManifest.create sha256 asOf rs = (do
      let replayTime ← utc asOf "as_of"
      let manifestHash ← manifestDigest sha256 (atUtc replayTime) (rs.map entryOf)
      pure ⟨atUtc replayTime, rs.map entryOf, manifestHash⟩) := by
  unfold ReplayManifest.create
  rw [orderBy_eq_self ((List.pairwise_map.mp h).imp fun hlt => le_of_lt hlt)]

theorem entryOf_normalized (rs : List PointInTimeRecord) :
    (rs.map PointInTimeRecord.normalized).map entryOf = rs.map entryOf := by
  rw [List.map_map]
  exact List.map_congr_left fun r _ => rfl

/-- The manifest sees the records up to Python's equality. -/
theorem manifestAt_of_sameContent (h : SameContent L₁ L₂) (asOf : DateTime)
    (visibility : ReplayVisibility) :
    manifestAt L₁ asOf visibility = manifestAt L₂ asOf visibility := by
  cases hasOf : asOfUtc asOf with
  | error x =>
    rw [manifestAt, manifestAt, visibleRecords_of_error hasOf, visibleRecords_of_error hasOf]
  | ok replayTime =>
    by_cases haware : AllAware L₁
    · have hentries : (view L₁ visibility replayTime).map entryOf =
          (view L₂ visibility replayTime).map entryOf := by
        rw [← entryOf_normalized, view_of_sameContent h, entryOf_normalized]
      rw [manifestAt, manifestAt, visibleRecords_of_aware hasOf haware,
        visibleRecords_of_aware hasOf (allAware_of_sameContent h haware), ok_bind, ok_bind,
        create_of_ascending asOf (view_ascends L₁ visibility replayTime),
        create_of_ascending asOf (view_ascends L₂ visibility replayTime), hentries]
    · rw [manifestAt, manifestAt, visibleRecords_of_naive hasOf haware,
        visibleRecords_of_naive hasOf fun hall => haware (allAware_of_sameContent h.symm hall)]

theorem buildManifest_of_sameContent (h : SameContent L₁ L₂) (asOf : DateTime) :
    L₁.buildManifest asOf = L₂.buildManifest asOf := by
  rw [buildManifest_eq, buildManifest_eq]
  exact congrArg (asOfUtc asOf >>= ·)
    (funext fun replayTime => manifestAt_of_sameContent h (atUtc replayTime) .observed)

end Content

/-! ## Later records -/

section Later

variable {L L' : PointInTimeLedger sha256} {extra : List PointInTimeRecord}
  {visibility : ReplayVisibility} {asOf : DateTime} {replayTime : Int}

theorem not_gated_of_after {r : PointInTimeRecord} (hasOf : asOfUtc asOf = .ok replayTime)
    (h : (visibleAt visibility r).after asOf = .ok true) : ¬ Gated visibility replayTime r := by
  obtain ⟨haware, rfl, -⟩ := astimezoneUtc_ok_iff.mp hasOf
  intro hgated
  rw [after_of_aware ((aware_iff_of_after h).mpr haware) haware] at h
  exact absurd (of_decide_eq_true (Except.ok.inj h)) (not_lt.mpr hgated)

/-- Records of which none is gated leave the gated records as they are. -/
theorem gated_appendAll (h : L.appendAll extra = .ok L')
    (hlater : ∀ r ∈ extra, ¬ Gated visibility replayTime r) {r : PointInTimeRecord} :
    r ∈ gatedRecords L' visibility replayTime ↔ r ∈ gatedRecords L visibility replayTime := by
  obtain ⟨hstored, hholds⟩ := holds_appendAll h
  rw [mem_gatedRecords, mem_gatedRecords]
  refine and_congr_left fun hgated => ⟨fun hr => ?_, fun hr => ?_⟩
  · rcases List.mem_append.mp (hstored r hr) with hold | hnew
    · exact hold
    · exact absurd hgated (hlater r hnew)
  · -- the record now filed under this id is equal to `r`, so it is gated, so it is not a later one
    obtain ⟨r', hget, hnormal⟩ := hholds r (List.mem_append_left _ hr)
    have hid := get_recordId hget
    have hr' : r' ∈ L'.storedRecords := mem_storedRecords.mpr (by rwa [hid])
    have hgated' : Gated visibility replayTime r' := by
      rwa [← gated_normalized, hnormal, gated_normalized]
    rcases List.mem_append.mp (hstored r' hr') with hold | hnew
    · rwa [← eq_of_recordId hold hr hid]
    · exact absurd hgated' (hlater r' hnew)

theorem allAware_appendAll_iff (h : L.appendAll extra = .ok L') (hextra : ∀ r ∈ extra, r.Aware) :
    AllAware L' ↔ AllAware L := by
  obtain ⟨hstored, hholds⟩ := holds_appendAll h
  constructor
  · intro hall r hr
    obtain ⟨r', hget, hnormal⟩ := hholds r (List.mem_append_left _ hr)
    have hr' : r' ∈ L'.storedRecords := mem_storedRecords.mpr (by rwa [get_recordId hget])
    rw [← aware_normalized, ← hnormal, aware_normalized]
    exact hall r' hr'
  · intro hall r hr
    rcases List.mem_append.mp (hstored r hr) with hold | hnew
    · exact hall r hold
    · exact hextra r hnew

/-- A verified record with a timestamp that compares with an aware one is aware. -/
theorem aware_of_after {r : PointInTimeRecord} {v : Bool} (hverify : r.verify sha256 = .ok ())
    (hasOf : asOf.utcoffset.isSome) (h : (visibleAt visibility r).after asOf = .ok v) : r.Aware := by
  have hboth := aware_iff_of_after (after_of_verify hverify)
  have hone := (aware_iff_of_after h).mpr hasOf
  unfold visibleAt at hone
  split at hone
  · exact ⟨hboth.mpr hone, hone⟩
  · exact ⟨hone, hboth.mp hone⟩

/-- **Records that become visible later do not change what is visible now.** -/
theorem visibleRecords_of_later (h : L.appendAll extra = .ok L')
    (hlater : ∀ r ∈ extra, (visibleAt visibility r).after asOf = .ok true) :
    L'.visibleRecords asOf visibility = L.visibleRecords asOf visibility := by
  cases hasOf : asOfUtc asOf with
  | error x => rw [visibleRecords_of_error hasOf, visibleRecords_of_error hasOf]
  | ok replayTime =>
    have hextra : ∀ r ∈ extra, r.Aware := fun r hr =>
      aware_of_after ((consistent_of_appendAll h).1 r hr) (astimezoneUtc_ok_iff.mp hasOf).1
        (hlater r hr)
    have hview : view L' visibility replayTime = view L visibility replayTime :=
      latestByKey_congr (gatedRecords_distinct L' visibility replayTime) fun r =>
        gated_appendAll h fun x hx => not_gated_of_after hasOf (hlater x hx)
    by_cases haware : AllAware L
    · rw [visibleRecords_of_aware hasOf haware, hview.symm,
        visibleRecords_of_aware hasOf ((allAware_appendAll_iff h hextra).mpr haware)]
    · rw [visibleRecords_of_naive hasOf haware, visibleRecords_of_naive hasOf fun hall =>
        haware ((allAware_appendAll_iff h hextra).mp hall)]

theorem manifestAt_of_later (h : L.appendAll extra = .ok L')
    (hlater : ∀ r ∈ extra, (visibleAt visibility r).after asOf = .ok true) :
    manifestAt L' asOf visibility = manifestAt L asOf visibility := by
  rw [manifestAt, manifestAt, visibleRecords_of_later h hlater]

end Later

/-! ## The three laws -/

/-- A quote published and first seen at these instants. -/
def quoteRecord (sha256 : String → String) (published firstSeen : Int) :
    Except Exc PointInTimeRecord :=
  PointInTimeRecord.create sha256 "quote:es" (atUtc published) (atUtc firstSeen) "desk" "1"
    "quote-v1" (.dict [(.str "price", .str "5000.25")])

/-- A quote is created, and verifies. -/
theorem quoteRecord_ok (sha256 : String → String) (published firstSeen : Int) (h : 0 ≤ published)
    (hle : published ≤ firstSeen) (hmax : firstSeen ≤ datetimeMax) :
    ∃ r, quoteRecord sha256 published firstSeen = .ok r ∧ r.verify sha256 = .ok () ∧
      r.logicalKey = "quote:es" ∧ r.publishedAt = atUtc published ∧
      r.firstSeenAt = atUtc firstSeen := by
  have hpublished : utc (atUtc published) "published_at" = .ok published :=
    astimezoneUtc_ok_iff.mpr ⟨rfl, by simp [atUtc, DateTime.utc], h, hle.trans hmax⟩
  have hfirst : utc (atUtc firstSeen) "first_seen_at" = .ok firstSeen :=
    astimezoneUtc_ok_iff.mpr ⟨rfl, by simp [atUtc, DateTime.utc], h.trans hle, hmax⟩
  have hcontent : ∃ frozen, freezeSnapshot sha256 (.dict [(.str "price", .str "5000.25")]) =
      .ok frozen := ⟨_, rfl⟩
  obtain ⟨frozen, hfrozen⟩ := hcontent
  have hidentity : ∃ v, encode (identityPayload "quote:es" (atUtc published) (atUtc firstSeen)
      "desk" "1" "quote-v1" frozen.snapshotId) = .ok v := by
    refine encode_record_ok fun p hp => ?_
    simp only [List.mem_cons, List.not_mem_nil, or_false] at hp
    rcases hp with rfl | rfl | rfl | rfl | rfl | rfl | rfl <;> exact ⟨_, rfl⟩
  obtain ⟨v, hv⟩ := hidentity
  have htexts : ∀ fieldName, ∀ text ∈ ["quote:es", "desk", "1", "quote-v1"],
      requireText text fieldName = .ok () := by
    intro fieldName text htext
    have hblank : ∀ text ∈ ["quote:es", "desk", "1", "quote-v1"], isBlank text = false := by
      decide +kernel
    rw [requireText, hblank text htext]
    rfl
  have hcreate : ∃ r, quoteRecord sha256 published firstSeen = .ok r ∧
      r.logicalKey = "quote:es" ∧ r.publishedAt = atUtc published ∧
      r.firstSeenAt = atUtc firstSeen := by
    rw [quoteRecord, PointInTimeRecord.create, hpublished, ok_bind, hfirst, ok_bind,
      if_neg (by omega), htexts _ _ (by simp), ok_bind, htexts _ _ (by simp), ok_bind,
      htexts _ _ (by simp), ok_bind, htexts _ _ (by simp), ok_bind, hfrozen, ok_bind,
      freezeSnapshot, hv]
    exact ⟨_, rfl, rfl, rfl, rfl⟩
  obtain ⟨r, hr, hfacts⟩ := hcreate
  have hstable : Stable (.dict [(.str "price", .str "5000.25")]) := by
    refine stable_of_str ?_ ?_
    · exact List.forall_mem_singleton.mpr ⟨"price", rfl⟩
    · exact List.forall_mem_singleton.mpr trivial
  exact ⟨r, hr, verify_of_created hr hstable, hfacts⟩

/-- A ledger of one record. -/
theorem mem_stored_single {r x : PointInTimeRecord} (h : r.verify sha256 = .ok ()) :
    x ∈ ((empty : PointInTimeLedger sha256).file r h).storedRecords ↔ x = r := by
  rw [mem_storedRecords, get_file]
  constructor
  · intro hx
    split at hx
    · exact (Option.some.inj hx).symm
    · exact absurd (show none = some x from hx) (by simp)
  · rintro rfl
    rw [if_pos rfl]

/-- Appending one record under a new id. -/
theorem appendAll_fresh {L : PointInTimeLedger sha256} {r : PointInTimeRecord}
    (h : r.verify sha256 = .ok ()) (hfresh : L.get r.recordId = none) :
    L.append r = .ok (L.file r h) ∧ L.appendAll [r] = .ok (L.file r h) := by
  have happend : L.append r = .ok (L.file r h) :=
    append_ok_iff.mpr ⟨h, fun existing hget => absurd (hfresh.symm.trans hget) (by simp), rfl⟩
  refine ⟨happend, ?_⟩
  rw [appendAll, List.foldlM_cons, happend]
  rfl

end MarketPilot.PointInTime
