import OpenBridge.Audit.ImmutableAuditRepository
import OpenBridge.GateConfig.CanonicalAgreement

/-!
# Audit service: what a verified chain commits to

Two stored chains that both verify and end in the same hash have the same length and, record by
record, the same identifiers, links and hashed texts.
-/

namespace OpenBridge.Audit

open OpenBridge.Foundation
open OpenBridge.GateConfig (CanonicalJson.sha256Hex)

variable {secretSalt : String}

def lastHash (rows : List AuditEvent) : Option String := (ordered rows).getLast?.map (·.currentHash)

def hashedText (secretSalt : String) (evt : AuditEvent) : String :=
  payload secretSalt evt evt.previousHash

/-- No two records show a collision of the hash function, and none a text with the hash that chains
start with. -/
structure CollisionFree (secretSalt : String) (rows : List AuditEvent) : Prop where
  injective : ∀ a ∈ rows, ∀ b ∈ rows, generateHash secretSalt a a.previousHash =
    generateHash secretSalt b b.previousHash → hashedText secretSalt a = hashedText secretSalt b
  genesis : ∀ a ∈ rows, generateHash secretSalt a a.previousHash ≠ genesis

/-- What two records with the same hashed text have to agree in to be equal: the fields that are
not hashed, where one hashed field ends and the next one begins, and what the canonical texts of
their states stand for. -/
structure SameFrame (a b : AuditEvent) : Prop where
  station : a.station = b.station
  entityType : a.entityType = b.entityType
  correlationId : a.correlationId = b.correlationId
  belowMillisecond : a.timestampUtc % 10000 = b.timestampUtc % 10000
  timestampUtc : (toString (toUnixTimeMilliseconds a.timestampUtc)).length =
    (toString (toUnixTimeMilliseconds b.timestampUtc)).length
  eventType : a.eventType.length = b.eventType.length
  userId : a.userId.length = b.userId.length
  sourceIp : a.sourceIp.length = b.sourceIp.length
  entityId : a.entityId.length = b.entityId.length
  beforeState : (stateText a.beforeState).length = (stateText b.beforeState).length
  beforeValue : stateText a.beforeState = stateText b.beforeState → a.beforeState = b.beforeState
  afterValue : stateText a.afterState = stateText b.afterState → a.afterState = b.afterState

theorem sameFrame_refl (a : AuditEvent) : SameFrame a a where
  station := rfl
  entityType := rfl
  correlationId := rfl
  belowMillisecond := rfl
  timestampUtc := rfl
  eventType := rfl
  userId := rfl
  sourceIp := rfl
  entityId := rfl
  beforeState := rfl
  beforeValue := fun _ => rfl
  afterValue := fun _ => rfl

/-! ## Hashes as texts -/

theorem genesis_eq : genesis = Sha256.hex (List.replicate 32 0) := by decide

theorem exists_bytes (secretSalt : String) (evt : AuditEvent) (previousHash : String) :
    ∃ bytes : List ℕ, (∀ n ∈ bytes, n < 256) ∧ bytes.length = 32 ∧
      generateHash secretSalt evt previousHash = Sha256.hex bytes := by
  refine ⟨Sha256.digest (Sha256.utf8 (payload secretSalt evt previousHash)),
    fun _ => lt_of_mem_digest, Sha256.length_digest _, ?_⟩
  unfold generateHash CanonicalJson.sha256Hex
  rfl

theorem length_generateHash (evt : AuditEvent) (previousHash : String) :
    (generateHash secretSalt evt previousHash).length = 64 := by
  obtain ⟨bytes, -, hlength, hhash⟩ := exists_bytes secretSalt evt previousHash
  rw [hhash, Sha256.length_hex, hlength]

theorem length_toUpperInvariant (s : String) : (toUpperInvariant s).length = s.length := by
  rw [toUpperInvariant, String.length_ofList, List.length_map, String.length_toList]

theorem length_currentHash {evt : AuditEvent} (h : verifyIntegrity secretSalt evt = true) :
    evt.currentHash.length = 64 := by
  have hupper : toUpperInvariant evt.currentHash =
      toUpperInvariant (generateHash secretSalt evt evt.previousHash) := of_decide_eq_true h
  rw [← length_toUpperInvariant, hupper, length_toUpperInvariant, length_generateHash]

theorem generateHash_eq {a b : AuditEvent} (ha : verifyIntegrity secretSalt a = true)
    (hb : verifyIntegrity secretSalt b = true) (h : a.currentHash = b.currentHash) :
    generateHash secretSalt a a.previousHash = generateHash secretSalt b b.previousHash := by
  have hupper : toUpperInvariant (generateHash secretSalt a a.previousHash) =
      toUpperInvariant (generateHash secretSalt b b.previousHash) := by
    rw [← of_decide_eq_true ha, h, of_decide_eq_true hb]
  obtain ⟨xs, hxs, -, hx⟩ := exists_bytes secretSalt a a.previousHash
  obtain ⟨ys, hys, -, hy⟩ := exists_bytes secretSalt b b.previousHash
  rw [hx, hy] at hupper
  rw [hx, hy, hex_ignoringCase hxs hys hupper]

theorem currentHash_ne_genesis {a : AuditEvent} (ha : verifyIntegrity secretSalt a = true)
    (h : generateHash secretSalt a a.previousHash ≠ genesis) : a.currentHash ≠ genesis := by
  intro hgenesis
  obtain ⟨bytes, hbytes, -, hhash⟩ := exists_bytes secretSalt a a.previousHash
  have hupper : toUpperInvariant genesis = toUpperInvariant (Sha256.hex bytes) := by
    rw [← hgenesis, ← hhash]
    exact of_decide_eq_true ha
  rw [genesis_eq] at hupper
  refine h ?_
  rw [hhash, genesis_eq, ← hex_ignoringCase (by decide) hbytes hupper]

/-! ## The hashed text -/

theorem length_previousHash {start : String} {events : List AuditEvent}
    (h : verifyFrom secretSalt start events = true) (hstart : start.length = 64) :
    ∀ evt ∈ events, evt.previousHash.length = 64 := by
  rw [verifyFrom_iff] at h
  induction events generalizing start with
  | nil => simp
  | cons evt rest ih =>
    obtain ⟨⟨hlink, hlinks⟩, hhashes⟩ := h
    obtain ⟨hhash, hrest⟩ := List.forall_mem_cons.mp hhashes
    refine List.forall_mem_cons.mpr ⟨hlink ▸ hstart, ?_⟩
    exact ih ⟨hlinks, hrest⟩ (length_currentHash hhash)

theorem toList_hashedText (evt : AuditEvent) : (hashedText secretSalt evt).toList =
    evt.eventId.text.toList ++ ((toString (toUnixTimeMilliseconds evt.timestampUtc)).toList ++
      (evt.eventType.toList ++ (evt.userId.toList ++ (evt.sourceIp.toList ++
        (evt.entityId.toList ++ ((stateText evt.beforeState).toList ++
          ((stateText evt.afterState).toList ++
            (evt.previousHash.toList ++ secretSalt.toList)))))))) := by
  simp only [hashedText, payload, String.toList_append, List.append_assoc]

theorem previousHash_of_hashedText {a b : AuditEvent}
    (h : hashedText secretSalt a = hashedText secretSalt b)
    (hlength : a.previousHash.length = b.previousHash.length) :
    a.previousHash = b.previousHash := by
  unfold hashedText payload at h
  have hlist := congrArg String.toList ((String.append_left_inj secretSalt).mp h)
  rw [@String.toList_append _ a.previousHash, @String.toList_append _ b.previousHash] at hlist
  rw [← String.length_toList, ← String.length_toList] at hlength
  exact String.toList_inj.mp (List.append_inj' hlist hlength).2

theorem eventId_of_hashedText {a b : AuditEvent}
    (h : hashedText secretSalt a = hashedText secretSalt b) : a.eventId = b.eventId := by
  have hlist := congrArg String.toList h
  rw [toList_hashedText, toList_hashedText] at hlist
  refine Guid.text_injective (KeyText.append_inj_of_length hlist ?_).1
  rw [← String.length_toList, ← String.length_toList, Guid.length_text, Guid.length_text]

theorem timestampUtc_eq {m n : ℕ}
    (h : toUnixTimeMilliseconds m = toUnixTimeMilliseconds n) (hlow : m % 10000 = n % 10000) :
    m = n := by
  unfold toUnixTimeMilliseconds at h
  omega

theorem eq_of_hashedText {a b : AuditEvent}
    (h : hashedText secretSalt a = hashedText secretSalt b)
    (hprevious : a.previousHash = b.previousHash) (hcurrent : a.currentHash = b.currentHash)
    (hframe : SameFrame a b) : a = b := by
  have hid := eventId_of_hashedText h
  have hlist := congrArg String.toList h
  rw [toList_hashedText, toList_hashedText, hid, hprevious] at hlist
  have hrest := List.append_cancel_left hlist
  obtain ⟨htime, hrest⟩ := KeyText.append_inj_of_length hrest hframe.timestampUtc
  obtain ⟨htype, hrest⟩ := KeyText.append_inj_of_length hrest hframe.eventType
  obtain ⟨huser, hrest⟩ := KeyText.append_inj_of_length hrest hframe.userId
  obtain ⟨hip, hrest⟩ := KeyText.append_inj_of_length hrest hframe.sourceIp
  obtain ⟨hentity, hrest⟩ := KeyText.append_inj_of_length hrest hframe.entityId
  obtain ⟨hbefore, hrest⟩ := KeyText.append_inj_of_length hrest hframe.beforeState
  have hafter := String.toList_inj.mp (List.append_cancel_right hrest)
  have htimestamp : a.timestampUtc = b.timestampUtc :=
    timestampUtc_eq (KeyText.toString_injective htime) hframe.belowMillisecond
  have hbeforeState := hframe.beforeValue hbefore
  have hafterState := hframe.afterValue hafter
  cases a
  cases b
  simp only [AuditEvent.mk.injEq]
  exact ⟨hid, htimestamp, htype, huser, hip, hframe.station, hframe.entityType, hentity,
    hbeforeState, hafterState, hframe.correlationId, hprevious, hcurrent⟩

/-! ## Chains with the same end -/

theorem mem_ordered {rows : List AuditEvent} {evt : AuditEvent} : evt ∈ ordered rows ↔ evt ∈ rows :=
  List.mem_mergeSort

/-- What two chains that verify and end in the same hash have in common, record by record. -/
structure SameText (secretSalt : String) (a b : AuditEvent) : Prop where
  currentHash : a.currentHash = b.currentHash
  previousHash : a.previousHash = b.previousHash
  hashedText : hashedText secretSalt a = hashedText secretSalt b

theorem sameText_of_lastHash {rows rows' : List AuditEvent}
    (h : verifyFullChainAsync secretSalt rows = true)
    (h' : verifyFullChainAsync secretSalt rows' = true) (hlast : lastHash rows = lastHash rows')
    (hfree : CollisionFree secretSalt (rows ++ rows')) :
    List.Forall₂ (SameText secretSalt) (ordered rows) (ordered rows') := by
  unfold verifyFullChainAsync at h h'
  have hlength := length_previousHash h (by decide)
  have hlength' := length_previousHash h' (by decide)
  obtain ⟨hlinks, hhashes⟩ := verifyFrom_iff.mp h
  obtain ⟨hlinks', hhashes'⟩ := verifyFrom_iff.mp h'
  have hmem : ∀ a ∈ ordered rows, a ∈ rows ++ rows' := fun a ha =>
    List.mem_append_left _ (mem_ordered.mp ha)
  have hmem' : ∀ b ∈ ordered rows', b ∈ rows ++ rows' := fun b hb =>
    List.mem_append_right _ (mem_ordered.mp hb)
  have htext : ∀ a ∈ ordered rows, ∀ b ∈ ordered rows', a.currentHash = b.currentHash →
      hashedText secretSalt a = hashedText secretSalt b := by
    intro a ha b hb hab
    exact hfree.injective a (hmem a ha) b (hmem' b hb)
      (generateHash_eq (hhashes a ha) (hhashes' b hb) hab)
  have hback : ∀ a ∈ ordered rows, ∀ b ∈ ordered rows', a.currentHash = b.currentHash →
      a.previousHash = b.previousHash := by
    intro a ha b hb hab
    exact previousHash_of_hashedText (htext a ha b hb hab)
      ((hlength a ha).trans (hlength' b hb).symm)
  have hend : HashChain.endOf AuditEvent.currentHash genesis (ordered rows) =
      HashChain.endOf AuditEvent.currentHash genesis (ordered rows') :=
    congrArg (fun last => Option.getD last genesis) hlast
  have haligned := HashChain.forall₂_of_endOf_eq hlinks hlinks' hback
    (fun a ha => currentHash_ne_genesis (hhashes a ha) (hfree.genesis a (hmem a ha)))
    (fun b hb => currentHash_ne_genesis (hhashes' b hb) (hfree.genesis b (hmem' b hb))) hend
  rw [List.forall₂_iff_zip] at haligned ⊢
  refine ⟨haligned.1, ?_⟩
  intro a b hab
  have ha := (List.of_mem_zip hab).1
  have hb := (List.of_mem_zip hab).2
  have hcurrent := haligned.2 hab
  exact ⟨hcurrent, hback a ha b hb hcurrent, htext a ha b hb hcurrent⟩

/-- Two chains that verify and end in the same hash are equal exactly when their records agree, one
by one, in the fields that are not hashed and in where the hashed fields end. -/
theorem chains_equal_iff (secretSalt : String) (rows rows' : List AuditEvent)
    (h : verifyFullChainAsync secretSalt rows = true)
    (h' : verifyFullChainAsync secretSalt rows' = true) (hlast : lastHash rows = lastHash rows')
    (hfree : CollisionFree secretSalt (rows ++ rows')) :
    ordered rows = ordered rows' ↔
      ∀ p ∈ (ordered rows).zip (ordered rows'), SameFrame p.1 p.2 := by
  have hsame := sameText_of_lastHash h h' hlast hfree
  rw [List.forall₂_iff_zip] at hsame
  constructor
  · intro heq p hp
    rw [heq] at hp
    have heq : p.1 = p.2 := List.forall₂_zip (List.forall₂_refl (ordered rows')) hp
    exact heq ▸ sameFrame_refl p.1
  · intro hframe
    have hrecords : List.Forall₂ (· = ·) (ordered rows) (ordered rows') := by
      refine List.forall₂_iff_zip.mpr ⟨hsame.1, ?_⟩
      intro a b hab
      have htext := hsame.2 hab
      exact eq_of_hashedText htext.hashedText htext.previousHash htext.currentHash (hframe _ hab)
    rwa [List.forall₂_eq_eq_eq] at hrecords

/-! ## A record moved to another station -/

def firstRecord : AuditEvent :=
  linked "default-development-salt" [] (operatorEvent 1 639000000000000000)

def movedRecord : AuditEvent := { firstRecord with station := "S2" }

theorem previousHash_firstRecord : firstRecord.previousHash = genesis := by
  simp only [firstRecord, linked, latestFirst, List.mergeSort_nil, List.head?_nil, Option.map_none,
    Option.getD_none]

theorem verified_singleton {evt : AuditEvent} (hlink : evt.previousHash = genesis)
    (hhash : verifyIntegrity secretSalt evt = true) :
    verifyFullChainAsync secretSalt [evt] = true := by
  unfold verifyFullChainAsync
  rw [ordered_of_pairwise (List.pairwise_singleton _ _), verifyFrom_iff]
  exact ⟨⟨hlink, trivial⟩, by simpa using hhash⟩

theorem collisionFree_records :
    CollisionFree "default-development-salt" ([firstRecord] ++ [movedRecord]) := by
  have hgenesis : generateHash "default-development-salt" firstRecord firstRecord.previousHash ≠
      genesis := by
    rw [previousHash_firstRecord]
    change generateHash "default-development-salt" (operatorEvent 1 639000000000000000) genesis ≠
      genesis
    rw [generateHash_first]
    decide
  constructor
  · intro a ha b hb _
    simp only [List.cons_append, List.nil_append, List.mem_cons, List.not_mem_nil, or_false]
      at ha hb
    rcases ha with rfl | rfl <;> rcases hb with rfl | rfl <;> rfl
  · intro a ha
    simp only [List.cons_append, List.nil_append, List.mem_cons, List.not_mem_nil, or_false] at ha
    rcases ha with rfl | rfl
    · exact hgenesis
    · exact hgenesis

theorem chains_equal_iff_moved : ordered [firstRecord] = ordered [movedRecord] ↔
    ∀ p ∈ (ordered [firstRecord]).zip (ordered [movedRecord]), SameFrame p.1 p.2 :=
  chains_equal_iff "default-development-salt" [firstRecord] [movedRecord]
    (verified_singleton previousHash_firstRecord (verifyIntegrity_linked _ _))
    (verified_singleton previousHash_firstRecord (verifyIntegrity_linked _ _))
    (by
      unfold lastHash
      rw [ordered_of_pairwise (List.pairwise_singleton _ _),
        ordered_of_pairwise (List.pairwise_singleton _ _)]
      rfl)
    collisionFree_records

/-- Both chains verify and end in the same hash, without a collision, and they differ. -/
theorem moved_record_unnoticed :
    verifyFullChainAsync "default-development-salt" [firstRecord] = true ∧
      verifyFullChainAsync "default-development-salt" [movedRecord] = true ∧
      lastHash [firstRecord] = lastHash [movedRecord] ∧
      CollisionFree "default-development-salt" ([firstRecord] ++ [movedRecord]) ∧
      ordered [firstRecord] ≠ ordered [movedRecord] := by
  refine ⟨verified_singleton previousHash_firstRecord (verifyIntegrity_linked _ _),
    verified_singleton previousHash_firstRecord (verifyIntegrity_linked _ _), ?_,
    collisionFree_records, ?_⟩
  · unfold lastHash
    rw [ordered_of_pairwise (List.pairwise_singleton _ _),
      ordered_of_pairwise (List.pairwise_singleton _ _)]
    rfl
  · rw [ordered_of_pairwise (List.pairwise_singleton _ _),
      ordered_of_pairwise (List.pairwise_singleton _ _)]
    intro h
    exact absurd (congrArg AuditEvent.station (List.cons.inj h).1) (by decide)

/-!
# Audit service: the hash of a stored event

The two states of an event are stored as `jsonb`, which sorts the members of an object by an order
of its own, keeps the last of several members of one name and prints scalars in its own spelling.
-/

open OpenBridge.GateConfig

/-- PostgreSQL `jsonb`: the spelling of a scalar and the order of the members. -/
structure Jsonb where
  spelling : String → String
  before : String → String → Bool

def keepLast {α : Type} : List (String × α) → List (String × α)
  | [] => []
  | m :: rest => if m.1 ∈ rest.map Prod.fst then keepLast rest else m :: keepLast rest

mutual

/-- A document as `jsonb` gives it back. -/
def stored (j : Jsonb) : JsonElement → JsonElement
  | .object members =>
      .object ((keepLast (storedMembers j members)).mergeSort fun a b => j.before a.1 b.1)
  | .array items => .array (storedItems j items)
  | .scalar rawText => .scalar (j.spelling rawText)

def storedMembers (j : Jsonb) : List (String × JsonElement) → List (String × JsonElement)
  | [] => []
  | (name, value) :: rest => (name, stored j value) :: storedMembers j rest

def storedItems (j : Jsonb) : List JsonElement → List JsonElement
  | [] => []
  | item :: rest => stored j item :: storedItems j rest

end

/-- An event as it is read back: `timestamptz` keeps whole microseconds. -/
def readBack (j : Jsonb) (evt : AuditEvent) : AuditEvent :=
  { evt with
    timestampUtc := evt.timestampUtc / 10 * 10
    beforeState := evt.beforeState.map (stored j)
    afterState := evt.afterState.map (stored j) }

mutual

/-- No name twice in an object, and every scalar as `jsonb` prints it. -/
def Settled (j : Jsonb) : JsonElement → Prop
  | .object members => (members.map Prod.fst).Nodup ∧ SettledMembers j members
  | .array items => SettledItems j items
  | .scalar rawText => j.spelling rawText = rawText

def SettledMembers (j : Jsonb) : List (String × JsonElement) → Prop
  | [] => True
  | (_, value) :: rest => Settled j value ∧ SettledMembers j rest

def SettledItems (j : Jsonb) : List JsonElement → Prop
  | [] => True
  | item :: rest => Settled j item ∧ SettledItems j rest

end

/-- The hash of the event that is read back is the hash that was written. -/
def HashSurvives (j : Jsonb) (secretSalt : String) (evt : AuditEvent) : Prop :=
  ∀ previousHash, generateHash secretSalt (readBack j evt) previousHash =
    generateHash secretSalt evt previousHash

variable {j : Jsonb}

theorem keepLast_eq {α : Type} {ms : List (String × α)} (h : (ms.map Prod.fst).Nodup) :
    keepLast ms = ms := by
  induction ms with
  | nil => rfl
  | cons m rest ih =>
    obtain ⟨hm, hrest⟩ := List.nodup_cons.mp h
    rw [keepLast, if_neg hm, ih hrest]

theorem canonicalMembers_eq (ms : List (String × JsonElement)) :
    canonicalMembers ms = ms.map fun m => (m.1, Canonical m.2) := by
  induction ms with
  | nil => rfl
  | cons m rest ih =>
    rw [List.map_cons, ← ih]
    rfl

theorem storedMembers_keys (ms : List (String × JsonElement)) :
    (storedMembers j ms).map Prod.fst = ms.map Prod.fst := by
  induction ms with
  | nil => rfl
  | cons m rest ih => exact congrArg (m.1 :: ·) ih

theorem canonicalMembers_keys (ms : List (String × JsonElement)) :
    (canonicalMembers ms).map Prod.fst = ms.map Prod.fst := by
  rw [canonicalMembers_eq, List.map_map]
  rfl

/-- Members of distinct names sort the same way from any order. -/
theorem mergeSort_eq_of_perm {ms ns : List (String × String)} (hperm : ms.Perm ns)
    (hnodup : (ms.map Prod.fst).Nodup) :
    ms.mergeSort (fun a b => CanonicalJson.keyLe a.1 b.1) =
      ns.mergeSort fun a b => CanonicalJson.keyLe a.1 b.1 := by
  have hpairwise := fun l : List (String × String) => @List.pairwise_mergeSort _
    (fun a b : String × String => CanonicalJson.keyLe a.1 b.1)
    (fun _ _ _ => CanonicalJson.unitsLe_trans)
    (fun _ _ => Bool.or_eq_true _ _ ▸ CanonicalJson.unitsLe_total _ _) l
  refine List.Perm.eq_of_pairwise (fun a b ha hb hab hba => ?_) (hpairwise ms) (hpairwise ns)
    (((List.mergeSort_perm _ _).trans hperm).trans (List.mergeSort_perm _ _).symm)
  have hb' : b ∈ ms := hperm.symm.subset (List.mem_mergeSort.mp hb)
  exact List.inj_on_of_nodup_map hnodup (List.mem_mergeSort.mp ha) hb'
    (CanonicalJson.keyLe_antisymm hab hba)

mutual

/-- The canonical text of a settled document does not change in the store. -/
theorem canonical_stored : (e : JsonElement) → Settled j e → Canonical (stored j e) = Canonical e
  | .object members, h => by
    have hmembers := canonicalMembers_stored members h.2
    have hkeys : ((storedMembers j members).map Prod.fst).Nodup :=
      (storedMembers_keys members).symm ▸ h.1
    have hperm : (canonicalMembers ((storedMembers j members).mergeSort
        fun a b => j.before a.1 b.1)).Perm (canonicalMembers members) := by
      rw [← hmembers, canonicalMembers_eq, canonicalMembers_eq (storedMembers j members)]
      exact (List.mergeSort_perm _ _).map _
    have hsorted := mergeSort_eq_of_perm hperm (by
      rw [canonicalMembers_keys]
      exact ((List.mergeSort_perm _ _).map Prod.fst).nodup_iff.mpr hkeys)
    rw [stored, keepLast_eq hkeys, Canonical, Canonical, hsorted]
  | .array items, h => by
    rw [stored, Canonical, Canonical, canonicalItems_stored items h]
  | .scalar rawText, h => by
    rw [stored, Canonical, Canonical]
    exact h

theorem canonicalMembers_stored : (ms : List (String × JsonElement)) → SettledMembers j ms →
    canonicalMembers (storedMembers j ms) = canonicalMembers ms
  | [], _ => rfl
  | (name, value) :: rest, h => by
    rw [storedMembers, canonicalMembers, canonicalMembers, canonical_stored value h.1,
      canonicalMembers_stored rest h.2]

theorem canonicalItems_stored : (items : List JsonElement) → SettledItems j items →
    canonicalItems (storedItems j items) = canonicalItems items
  | [], _ => rfl
  | item :: rest, h => by
    rw [storedItems, canonicalItems, canonicalItems, canonical_stored item h.1,
      canonicalItems_stored rest h.2]

end

theorem stateText_stored {state : Option JsonElement} (h : ∀ e ∈ state, Settled j e) :
    stateText (state.map (stored j)) = stateText state := by
  cases state with
  | none => rfl
  | some e => exact canonical_stored e (h e rfl)

/-- **The hash survives storage when no object of a state has a name twice and every scalar is
spelled as the database prints it.** -/
theorem hashSurvives_of_settled (j : Jsonb) (secretSalt : String) (evt : AuditEvent)
    (hbefore : ∀ e ∈ evt.beforeState, Settled j e) (hafter : ∀ e ∈ evt.afterState, Settled j e) :
    HashSurvives j secretSalt evt := by
  intro previousHash
  have htime : toUnixTimeMilliseconds (evt.timestampUtc / 10 * 10) =
      toUnixTimeMilliseconds evt.timestampUtc := by
    unfold toUnixTimeMilliseconds
    omega
  have hpayload : payload secretSalt (readBack j evt) previousHash =
      payload secretSalt evt previousHash := by
    unfold payload readBack
    dsimp only
    rw [htime, stateText_stored hbefore, stateText_stored hafter]
  unfold generateHash
  rw [hpayload]

def smallJsonb : Jsonb where
  spelling rawText := if rawText = "1e2" then "100" else rawText
  before a b := a.length ≤ b.length

def eventWith (state : JsonElement) : AuditEvent :=
  { operatorEvent 1 639000000000000000 with afterState := some state }

/-- Members in another order. -/
theorem hashSurvives_reordered : HashSurvives smallJsonb "default-development-salt"
    (eventWith (.object [("limit", .scalar "100"), ("tag", .scalar "true")])) := by
  refine hashSurvives_of_settled _ _ _ nofun fun e he => ?_
  cases he
  exact ⟨by decide, rfl, rfl, trivial⟩

/-- A number in another spelling. -/
theorem hash_lost_spelling : ¬ ∀ (j : Jsonb) (secretSalt : String) (evt : AuditEvent),
    HashSurvives j secretSalt evt := by
  intro h
  have hlost : generateHash "" (readBack smallJsonb (eventWith (.scalar "1e2"))) "" ≠
      generateHash "" (eventWith (.scalar "1e2")) "" := by decide +kernel
  exact hlost (h _ _ _ _)

end OpenBridge.Audit
