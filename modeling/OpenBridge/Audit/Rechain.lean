import OpenBridge.Audit.ImmutableAuditRepository

/-!
# Audit service: rechaining the stored events

`ChainIntegrityVerifier.RechainAsync` walks the events in the verifier's order and rehashes those
whose hash is not the expected one.  `GenerateHash` sets the link of an event before the links are
compared, so a link that alone is wrong counts as right, and is saved only with another event.
-/

namespace OpenBridge.Audit

open OpenBridge.Foundation

variable (secretSalt : String)

/-- The loop of `RechainAsync`: the events as they are tracked, and how many were rehashed. -/
def rechainFrom (previous : String) : List AuditEvent → List AuditEvent × ℕ
  | [] => ([], 0)
  | evt :: rest =>
      -- `GenerateHash`, which sets the link
      let expected := generateHash secretSalt evt previous
      let evt := { evt with previousHash := previous }
      if evt.previousHash ≠ previous ∨ ¬ equalsOrdinalIgnoreCase evt.currentHash expected then
        let rest := rechainFrom expected rest
        ({ evt with previousHash := previous, currentHash := expected } :: rest.1, rest.2 + 1)
      else
        let rest := rechainFrom evt.currentHash rest
        (evt :: rest.1, rest.2)

/-- `RechainAsync`, which saves when an event was rehashed: `none` when the save violates the unique
index of the hashes. -/
def rechainAsync (rows : List AuditEvent) : Option (List AuditEvent × ℕ) :=
  let rechained := rechainFrom secretSalt genesis (ordered rows)
  if rechained.2 = 0 then some (rows, 0)
  else if (rechained.1.map AuditEvent.currentHash).Nodup then some rechained
  else none

def AuditEvent.withoutHashes (evt : AuditEvent) : AuditEvent :=
  { evt with previousHash := "", currentHash := "" }

variable {secretSalt} {start : String} {events rows saved : List AuditEvent} {n : ℕ}

theorem rechainFrom_kept {evt : AuditEvent}
    (h : equalsOrdinalIgnoreCase evt.currentHash (generateHash secretSalt evt start) = true) :
    rechainFrom secretSalt start (evt :: events) =
      ({ evt with previousHash := start } :: (rechainFrom secretSalt evt.currentHash events).1,
        (rechainFrom secretSalt evt.currentHash events).2) := by
  rw [rechainFrom]
  exact if_neg (not_or.mpr ⟨not_not.mpr rfl, not_not.mpr h⟩)

theorem rechainFrom_rehashed {evt : AuditEvent}
    (h : ¬ equalsOrdinalIgnoreCase evt.currentHash (generateHash secretSalt evt start) = true) :
    rechainFrom secretSalt start (evt :: events) =
      let rest := rechainFrom secretSalt (generateHash secretSalt evt start) events
      ({ evt with previousHash := start, currentHash := generateHash secretSalt evt start } :: rest.1,
        rest.2 + 1) := by
  rw [rechainFrom]
  exact if_pos (Or.inr h)

theorem verifyFrom_cons_of {evt : AuditEvent} (hlink : evt.previousHash = start)
    (hhash : equalsOrdinalIgnoreCase evt.currentHash (generateHash secretSalt evt start) = true)
    (h : verifyFrom secretSalt evt.currentHash events = true) :
    verifyFrom secretSalt start (evt :: events) = true := by
  have hhash : verifyIntegrity secretSalt evt = true := by
    rwa [← hlink] at hhash
  rwa [verifyFrom, if_neg (not_not.mpr hlink), if_neg (not_not.mpr hhash)]

theorem verifyFrom_rechainFrom :
    verifyFrom secretSalt start (rechainFrom secretSalt start events).1 = true := by
  induction events generalizing start with
  | nil => rfl
  | cons evt rest ih =>
    by_cases h : equalsOrdinalIgnoreCase evt.currentHash (generateHash secretSalt evt start) = true
    · rw [rechainFrom_kept h]
      exact verifyFrom_cons_of rfl h ih
    · rw [rechainFrom_rehashed h]
      exact verifyFrom_cons_of rfl (equalsOrdinalIgnoreCase_refl _) ih

theorem rechainFrom_of_verified (h : verifyFrom secretSalt start events = true) :
    rechainFrom secretSalt start events = (events, 0) := by
  induction events generalizing start with
  | nil => rfl
  | cons evt rest ih =>
    rw [verifyFrom] at h
    split at h
    · cases h
    rename_i hlink
    split at h
    · cases h
    rename_i hhash
    obtain rfl := not_not.mp hlink
    rw [rechainFrom_kept (not_not.mp hhash), ih h]

theorem withoutHashes_rechainFrom :
    (rechainFrom secretSalt start events).1.map AuditEvent.withoutHashes =
      events.map AuditEvent.withoutHashes := by
  induction events generalizing start with
  | nil => rfl
  | cons evt rest ih =>
    by_cases h : equalsOrdinalIgnoreCase evt.currentHash (generateHash secretSalt evt start) = true
    · rw [rechainFrom_kept h]
      exact congrArg (evt.withoutHashes :: ·) ih
    · rw [rechainFrom_rehashed h]
      exact congrArg (evt.withoutHashes :: ·) ih

theorem pairwise_ordered (hids : (rows.map AuditEvent.eventId).Nodup) :
    (ordered rows).Pairwise fun a b => a.place < b.place := by
  have hperm : (ordered rows).Perm rows := List.mergeSort_perm _ _
  have hsorted : (ordered rows).Pairwise fun a b => decide (a.place ≤ b.place) = true :=
    List.pairwise_mergeSort (fun _ _ _ => by simpa using le_trans)
      (fun _ _ => by simpa using le_total _ _) rows
  have hdistinct := List.pairwise_map.mp ((hperm.map AuditEvent.eventId).nodup_iff.mpr hids)
  exact hsorted.imp₂ (fun a b hab hne => lt_of_le_of_ne (of_decide_eq_true hab) fun heq =>
    hne (congrArg (fun p => (ofLex p).2) heq)) hdistinct

theorem ordered_rechained (hids : (rows.map AuditEvent.eventId).Nodup) :
    ordered (rechainFrom secretSalt genesis (ordered rows)).1 =
      (rechainFrom secretSalt genesis (ordered rows)).1 := by
  have hplace : AuditEvent.place = AuditEvent.place ∘ AuditEvent.withoutHashes := rfl
  refine ordered_of_pairwise (List.pairwise_map.mp ?_)
  rw [hplace, ← List.map_map, withoutHashes_rechainFrom, List.map_map, ← hplace]
  exact List.pairwise_map.mpr (pairwise_ordered hids)

/-- A rechained table keeps its events, and verifies where an event was rehashed or it verified
before.  A second run finds nothing to do. -/
theorem rechained_verifies (hids : (rows.map AuditEvent.eventId).Nodup)
    (h : rechainAsync secretSalt rows = some (saved, n)) :
    (saved.map AuditEvent.withoutHashes).Perm (rows.map AuditEvent.withoutHashes) ∧
      (verifyFullChainAsync secretSalt saved = true ↔
        0 < n ∨ verifyFullChainAsync secretSalt rows = true) ∧
      (verifyFullChainAsync secretSalt rows = true → saved = rows ∧ n = 0) ∧
      rechainAsync secretSalt saved = some (saved, 0) := by
  have hstands : verifyFullChainAsync secretSalt rows = true →
      (rechainFrom secretSalt genesis (ordered rows)).2 = 0 := fun hverified => by
    rw [rechainFrom_of_verified hverified]
  have hcase := h
  unfold rechainAsync at hcase
  dsimp only at hcase
  split at hcase
  · obtain ⟨rfl, rfl⟩ := Prod.mk.inj (Option.some.inj hcase)
    exact ⟨List.Perm.refl _, by simp, fun _ => ⟨rfl, rfl⟩, h⟩
  rename_i hrehashed
  split at hcase
  · obtain ⟨rfl, rfl⟩ := Prod.mk.inj (Option.some.inj hcase)
    have hverifies : verifyFrom secretSalt genesis
        (ordered (rechainFrom secretSalt genesis (ordered rows)).1) = true := by
      rw [ordered_rechained hids]
      exact verifyFrom_rechainFrom
    refine ⟨?_, iff_of_true hverifies (Or.inl (Nat.pos_of_ne_zero hrehashed)),
      fun hverified => absurd (hstands hverified) hrehashed, ?_⟩
    · rw [withoutHashes_rechainFrom]
      exact (List.mergeSort_perm _ _).map _
    · unfold rechainAsync
      dsimp only
      rw [rechainFrom_of_verified hverifies]
      exact if_pos rfl
  · cases hcase

/-- An event whose hash is right, and whose link was changed. -/
private def movedLink (secretSalt : String) (evt : AuditEvent) : AuditEvent :=
  { evt with previousHash := "0", currentHash := generateHash secretSalt evt genesis }

theorem rechainAsync_movedLink (evt : AuditEvent) :
    rechainAsync secretSalt [movedLink secretSalt evt] = some ([movedLink secretSalt evt], 0) := by
  have hhash : equalsOrdinalIgnoreCase (movedLink secretSalt evt).currentHash
      (generateHash secretSalt (movedLink secretSalt evt) genesis) = true := by
    simp only [movedLink, generateHash, payload, equalsOrdinalIgnoreCase_refl]
  unfold rechainAsync
  rw [ordered_of_pairwise (List.pairwise_singleton _ _), rechainFrom_kept hhash]
  exact if_pos rfl

theorem wrong_link_stays :
    (verifyFullChainAsync "" [movedLink "" (operatorEvent 1 638999999990000000)] = true ↔
      0 < 0 ∨ verifyFullChainAsync "" [movedLink "" (operatorEvent 1 638999999990000000)] = true) ∧
    verifyFullChainAsync "" [movedLink "" (operatorEvent 1 638999999990000000)] = false := by
  refine ⟨(rechained_verifies (by decide) (rechainAsync_movedLink _)).2.1, ?_⟩
  unfold verifyFullChainAsync
  rw [ordered_of_pairwise (List.pairwise_singleton _ _), verifyFrom]
  exact if_pos fun h => absurd (congrArg String.length h) (by decide)

end OpenBridge.Audit
