import Mathlib.Data.Prod.Lex
import OpenBridge.Foundation.Guid
import OpenBridge.Foundation.HashChain
import OpenBridge.Foundation.Machine
import OpenBridge.GateConfig.CanonicalJson

/-!
# Audit service: the hash of an audit event

`AuditEvent` and `AuditHashChainService`.  The canonical JSON text sorts the members of objects and
keeps scalars as they were written.
-/

namespace OpenBridge.Audit

open OpenBridge.Foundation
open OpenBridge.GateConfig (CanonicalJson.keyLe CanonicalJson.codeUnits CanonicalJson.sha256Hex)

/-- `JsonElement`: a scalar is kept with its raw text. -/
inductive JsonElement
  | object (members : List (String × JsonElement))
  | array (items : List JsonElement)
  | scalar (rawText : String)

/-- `AuditEvent`.  The instant is in ticks of 100 ns since the beginning of the calendar, the
`UtcTicks` of a `DateTimeOffset`. -/
structure AuditEvent where
  eventId : Guid
  timestampUtc : ℕ
  eventType : String
  userId : String
  sourceIp : String
  station : String
  entityType : String
  entityId : String
  /-- A `JsonDocument`, by its root element. -/
  beforeState : Option JsonElement
  afterState : Option JsonElement
  correlationId : Option String
  previousHash : String
  currentHash : String

/-- The code units that `JavaScriptEncoder.Default` leaves as they are: printable ASCII without the
characters that HTML gives a meaning to. -/
def isAllowed (unit : ℕ) : Bool :=
  0x20 ≤ unit ∧ unit < 0x7F ∧ ¬ unit ∈ [0x22, 0x26, 0x27, 0x2B, 0x3C, 0x3E, 0x5C, 0x60]

/-- The escape of a code unit. -/
def escapeUnit (unit : ℕ) : List Char :=
  if isAllowed unit then [Char.ofNat unit]
  else if unit = 0x5C then ['\\', '\\']
  else if unit = 8 then ['\\', 'b']
  else if unit = 9 then ['\\', 't']
  else if unit = 10 then ['\\', 'n']
  else if unit = 12 then ['\\', 'f']
  else if unit = 13 then ['\\', 'r']
  else
    let digits := [unit / 4096 % 16, unit / 256 % 16, unit / 16 % 16, unit % 16]
    '\\' :: 'u' :: digits.map fun d => (Sha256.hexDigit d).toUpper

/-- `JsonSerializer.Serialize` of a text. -/
def serialize (name : String) : String :=
  String.ofList ('"' ::
    ((name.toList.flatMap CanonicalJson.codeUnits).flatMap escapeUnit ++ ['"']))

mutual

def Canonical : JsonElement → String
  | .object members =>
      "\x7b" ++ ",".intercalate
        (((canonicalMembers members).mergeSort fun a b => CanonicalJson.keyLe a.1 b.1).map
          fun p => serialize p.1 ++ ":" ++ p.2) ++ "\x7d"
  | .array items => "[" ++ ",".intercalate (canonicalItems items) ++ "]"
  | .scalar rawText => rawText

def canonicalMembers : List (String × JsonElement) → List (String × String)
  | [] => []
  | (name, value) :: rest => (name, Canonical value) :: canonicalMembers rest

def canonicalItems : List JsonElement → List String
  | [] => []
  | item :: rest => Canonical item :: canonicalItems rest

end

/-- `ToUnixTimeMilliseconds`: whole milliseconds, rounded down. -/
def toUnixTimeMilliseconds (utcTicks : ℕ) : ℤ := (utcTicks / 10000 : ℕ) - 62135596800000

def stateText (state : Option JsonElement) : String :=
  match state with
  | none => "null"
  | some root => Canonical root

/-- The text that is hashed for an event; `secretSalt` is the service's configured secret. -/
def payload (secretSalt : String) (evt : AuditEvent) (previousHash : String) : String :=
  evt.eventId.text ++ toString (toUnixTimeMilliseconds evt.timestampUtc) ++ evt.eventType ++
    evt.userId ++ evt.sourceIp ++ evt.entityId ++ stateText evt.beforeState ++
    stateText evt.afterState ++ previousHash ++ secretSalt

def generateHash (secretSalt : String) (evt : AuditEvent) (previousHash : String) : String :=
  CanonicalJson.sha256Hex (payload secretSalt evt previousHash)

def verifyIntegrity (secretSalt : String) (evt : AuditEvent) : Bool :=
  equalsOrdinalIgnoreCase evt.currentHash (generateHash secretSalt evt evt.previousHash)

/-!
# Audit service: appending to the chain and verifying it

`ImmutableAuditRepository.AppendAsync` and `ChainIntegrityVerifier.VerifyFullChainAsync`.
-/

def AuditEvent.place (evt : AuditEvent) : ℕ ×ₗ Guid := toLex (evt.timestampUtc, evt.eventId)

def genesis : String := String.ofList (List.replicate 64 '0')

/-- The stored events, `OrderByDescending(TimestampUtc).ThenByDescending(EventId)`. -/
def latestFirst (rows : List AuditEvent) : List AuditEvent :=
  rows.mergeSort fun a b => decide (b.place ≤ a.place)

/-- The stored events, `OrderBy(TimestampUtc).ThenBy(EventId)`. -/
def ordered (rows : List AuditEvent) : List AuditEvent :=
  rows.mergeSort fun a b => decide (a.place ≤ b.place)

variable (secretSalt : String)

def linked (rows : List AuditEvent) (evt : AuditEvent) : AuditEvent :=
  let lastEvent := (latestFirst rows).head?
  let previousHash := (lastEvent.map (·.currentHash)).getD genesis
  { evt with
    previousHash := previousHash
    currentHash := generateHash secretSalt evt previousHash }

/-- `AppendAsync`, under the lock: `none` when the insert violates the key or the unique index of
the hashes, and the transaction is rolled back. -/
def appendAsync (rows : List AuditEvent) (evt : AuditEvent) : Option (List AuditEvent) :=
  let evt := linked secretSalt rows evt
  if rows.any fun row => row.eventId == evt.eventId || row.currentHash == evt.currentHash then none
  else some (rows ++ [evt])

def verifyFrom (expectedPreviousHash : String) : List AuditEvent → Bool
  | [] => true
  | evt :: rest =>
      -- 1. the link to the previous event, 2. the payload
      if evt.previousHash ≠ expectedPreviousHash then false
      else if ¬ verifyIntegrity secretSalt evt then false
      else verifyFrom evt.currentHash rest

def verifyFullChainAsync (rows : List AuditEvent) : Bool :=
  verifyFrom secretSalt genesis (ordered rows)

def step (rows : List AuditEvent) (evt : AuditEvent) : List AuditEvent × List Bool :=
  let rows := (appendAsync secretSalt rows evt).getD rows
  (rows, [verifyFullChainAsync secretSalt rows])

/-! ## The orders of the two queries -/

theorem ordered_of_perm {rows sorted : List AuditEvent} (hperm : rows.Perm sorted)
    (h : sorted.Pairwise fun a b => a.place < b.place) : ordered rows = sorted := by
  have hsorted : (ordered rows).Pairwise fun a b => a.place ≤ b.place := by
    refine (List.pairwise_mergeSort ?_ ?_ rows).imp fun hab => of_decide_eq_true hab
    · intro a b c hab hbc
      exact decide_eq_true ((of_decide_eq_true hab).trans (of_decide_eq_true hbc))
    · intro a b
      rcases le_total a.place b.place with hab | hab
      · simp [hab]
      · simp [hab]
  have hplaces : (sorted.map AuditEvent.place).Nodup :=
    List.pairwise_map.mpr (h.imp ne_of_lt)
  have hall : (ordered rows).Perm sorted := (List.mergeSort_perm _ _).trans hperm
  refine hall.eq_of_pairwise ?_ hsorted (h.imp le_of_lt)
  intro a b ha hb hab hba
  exact List.inj_on_of_nodup_map hplaces (hall.mem_iff.mp ha) hb (le_antisymm hab hba)

theorem ordered_of_pairwise {rows : List AuditEvent}
    (h : rows.Pairwise fun a b => a.place < b.place) : ordered rows = rows :=
  ordered_of_perm (List.Perm.refl rows) h

theorem head?_latestFirst {rows : List AuditEvent}
    (h : rows.Pairwise fun a b => a.place < b.place) :
    (latestFirst rows).head? = rows.getLast? := by
  have hsorted : (latestFirst rows).Pairwise fun a b => b.place ≤ a.place := by
    refine (List.pairwise_mergeSort ?_ ?_ rows).imp fun hab => of_decide_eq_true hab
    · intro a b c hab hbc
      exact decide_eq_true ((of_decide_eq_true hbc).trans (of_decide_eq_true hab))
    · intro a b
      rcases le_total a.place b.place with hab | hab
      · simp [hab]
      · simp [hab]
  have hreverse : rows.reverse.Pairwise fun a b => b.place ≤ a.place :=
    List.pairwise_reverse.mpr (h.imp le_of_lt)
  have hperm : (latestFirst rows).Perm rows.reverse :=
    (List.mergeSort_perm _ _).trans (List.reverse_perm rows).symm
  have hplaces : (rows.map AuditEvent.place).Nodup :=
    List.pairwise_map.mpr (h.imp ne_of_lt)
  have heq : latestFirst rows = rows.reverse := by
    refine hperm.eq_of_pairwise ?_ hsorted hreverse
    intro a b ha hb hba hab
    exact List.inj_on_of_nodup_map hplaces (List.mem_mergeSort.mp ha) (List.mem_reverse.mp hb)
      (le_antisymm hab hba)
  rw [heq, List.head?_reverse]

/-! ## The verifier's walk -/

variable {secretSalt}

theorem verifyFrom_iff {start : String} {events : List AuditEvent} :
    verifyFrom secretSalt start events = true ↔
      HashChain.Linked AuditEvent.previousHash AuditEvent.currentHash start events ∧
        ∀ evt ∈ events, verifyIntegrity secretSalt evt = true := by
  induction events generalizing start with
  | nil => simp [verifyFrom, HashChain.Linked]
  | cons evt rest ih =>
    simp only [verifyFrom, HashChain.Linked, List.forall_mem_cons]
    split
    · rename_i hlink
      simp only [Bool.false_eq_true, false_iff]
      exact fun h => hlink h.1.1
    · rename_i hlink
      split
      · rename_i hhash
        simp only [Bool.false_eq_true, false_iff]
        exact fun h => hhash h.2.1
      · rename_i hhash
        rw [ih]
        constructor
        · rintro ⟨hrest, hall⟩
          exact ⟨⟨not_not.mp hlink, hrest⟩, not_not.mp hhash, hall⟩
        · rintro ⟨⟨-, hrest⟩, -, hall⟩
          exact ⟨hrest, hall⟩

theorem verifyIntegrity_linked (rows : List AuditEvent) (evt : AuditEvent) :
    verifyIntegrity secretSalt (linked secretSalt rows evt) = true :=
  equalsOrdinalIgnoreCase_refl _

/-- The stored events are in the order of the queries, and their chain verifies. -/
structure Intact (secretSalt : String) (rows : List AuditEvent) : Prop where
  increasing : rows.Pairwise fun a b => a.place < b.place
  verified : verifyFullChainAsync secretSalt rows = true

theorem intact_nil : Intact secretSalt [] := by
  refine ⟨List.Pairwise.nil, ?_⟩
  unfold verifyFullChainAsync
  rw [ordered_of_pairwise List.Pairwise.nil, verifyFrom]

theorem Intact.step {rows : List AuditEvent} {evt : AuditEvent} (h : Intact secretSalt rows)
    (hlater : ∀ row ∈ rows, row.place < evt.place) :
    Intact secretSalt (step secretSalt rows evt).1 := by
  unfold Audit.step appendAsync
  dsimp only
  split
  · exact h
  · rw [Option.getD_some]
    have hplace : (linked secretSalt rows evt).place = evt.place := rfl
    have hincreasing : (rows ++ [linked secretSalt rows evt]).Pairwise
        fun a b => a.place < b.place := by
      rw [List.pairwise_append]
      refine ⟨h.increasing, List.pairwise_singleton _ _, ?_⟩
      intro row hrow new hnew
      rw [List.mem_singleton.mp hnew, hplace]
      exact hlater row hrow
    have hverified := h.verified
    unfold verifyFullChainAsync at hverified
    rw [ordered_of_pairwise h.increasing, verifyFrom_iff] at hverified
    refine ⟨hincreasing, ?_⟩
    unfold verifyFullChainAsync
    rw [ordered_of_pairwise hincreasing, verifyFrom_iff, HashChain.linked_concat]
    refine ⟨⟨hverified.1, ?_⟩, ?_⟩
    · -- the latest event of the writer's query is the last one of the verifier's walk
      simp only [linked, head?_latestFirst h.increasing, HashChain.endOf]
    · intro e he
      rcases List.mem_append.mp he with he | he
      · exact hverified.2 e he
      · rw [List.mem_singleton.mp he]
        exact verifyIntegrity_linked rows evt

theorem mem_step {rows : List AuditEvent} {evt row : AuditEvent}
    (h : row ∈ (step secretSalt rows evt).1) : row ∈ rows ∨ row = linked secretSalt rows evt := by
  unfold step appendAsync at h
  dsimp only at h
  split at h
  · exact Or.inl h
  · exact (List.mem_append.mp h).imp_right List.mem_singleton.mp

theorem Intact.outputs {rows events : List AuditEvent} (h : Intact secretSalt rows)
    (hlater : ∀ row ∈ rows, ∀ evt ∈ events, row.place < evt.place)
    (hevents : events.Pairwise fun a b => a.place < b.place) :
    ∀ report ∈ Machine.outputs (Audit.step secretSalt) rows events, report = true := by
  induction events generalizing rows with
  | nil => simp
  | cons evt rest ih =>
    obtain ⟨hhead, hrest⟩ := List.pairwise_cons.mp hevents
    have hstep : Intact secretSalt (Audit.step secretSalt rows evt).1 :=
      h.step fun row hrow => hlater row hrow evt List.mem_cons_self
    intro report hreport
    rw [Machine.outputs_cons] at hreport
    rcases List.mem_append.mp hreport with hreport | hreport
    · rw [List.mem_singleton.mp hreport]
      exact hstep.verified
    · refine ih hstep ?_ hrest report hreport
      intro row hrow later hmem
      rcases mem_step hrow with hrow | rfl
      · exact hlater row hrow later (List.mem_cons_of_mem _ hmem)
      · exact hhead later hmem

/-- Events appended to an empty store in the order of their times, and of their ids at equal times,
are each followed by a report that the chain is intact. -/
theorem intact_of_increasing (secretSalt : String) (events : List AuditEvent)
    (h : events.Pairwise fun a b => a.place < b.place) :
    ∀ report ∈ Machine.outputs (step secretSalt) [] events, report = true :=
  intact_nil.outputs (fun _ hrow => absurd hrow List.not_mem_nil) h

def operatorEvent (eventId : Guid) (timestampUtc : ℕ) : AuditEvent where
  eventId := eventId
  timestampUtc := timestampUtc
  eventType := "ALARM_SHELVED"
  userId := "operator"
  sourceIp := "10.0.0.7"
  station := "S1"
  entityType := "Alarm"
  entityId := "FIC-101"
  beforeState := none
  afterState := none
  correlationId := none
  previousHash := ""
  currentHash := ""

theorem intact_of_increasing_pair :
    operatorEvent 1 638999999990000000 ≠ operatorEvent 2 639000000000000000 ∧
      ∀ report ∈ Machine.outputs (step "default-development-salt") []
        [operatorEvent 1 638999999990000000, operatorEvent 2 639000000000000000],
        report = true :=
  ⟨fun h => absurd (congrArg AuditEvent.timestampUtc h) (by decide),
    intact_of_increasing _ _ (by decide)⟩

/-! ## Events that arrive late -/

theorem exists_cut {rows : List AuditEvent} {evt : AuditEvent}
    (h : rows.Pairwise fun a b => a.place < b.place) (hne : ∀ row ∈ rows, row.place ≠ evt.place) :
    ∃ before after, rows = before ++ after ∧ (∀ row ∈ before, row.place < evt.place) ∧
      ∀ row ∈ after, evt.place < row.place := by
  induction rows with
  | nil => exact ⟨[], [], rfl, by simp, by simp⟩
  | cons row rest ih =>
    obtain ⟨hhead, hrest⟩ := List.pairwise_cons.mp h
    rcases lt_or_gt_of_ne (hne row List.mem_cons_self) with hlt | hgt
    · obtain ⟨before, after, hcut, hbefore, hafter⟩ :=
        ih hrest fun r hr => hne r (List.mem_cons_of_mem _ hr)
      refine ⟨row :: before, after, by rw [hcut, List.cons_append], ?_, hafter⟩
      exact List.forall_mem_cons.mpr ⟨hlt, hbefore⟩
    · refine ⟨[], row :: rest, rfl, by simp, List.forall_mem_cons.mpr ⟨hgt, ?_⟩⟩
      intro r hr
      exact lt_trans hgt (hhead r hr)

theorem ordered_concat {before after : List AuditEvent} {evt : AuditEvent}
    (h : (before ++ after).Pairwise fun a b => a.place < b.place)
    (hbefore : ∀ row ∈ before, row.place < evt.place)
    (hafter : ∀ row ∈ after, evt.place < row.place) :
    ordered (before ++ after ++ [evt]) = before ++ evt :: after := by
  refine ordered_of_perm ?_ ?_
  · rw [List.append_assoc]
    exact List.Perm.append_left _ (List.perm_append_comm)
  · obtain ⟨hb, ha, hcross⟩ := List.pairwise_append.mp h
    refine List.pairwise_append.mpr ⟨hb, List.pairwise_cons.mpr ⟨hafter, ha⟩, ?_⟩
    intro x hx y hy
    rcases List.mem_cons.mp hy with rfl | hy
    · exact hbefore x hx
    · exact hcross x hx y hy

theorem not_verified_of_late {rows stored : List AuditEvent} {evt row : AuditEvent}
    (h : Intact secretSalt rows) (hstored : appendAsync secretSalt rows evt = some stored)
    (hhash : (linked secretSalt rows evt).currentHash ≠ genesis) (hrow : row ∈ rows)
    (hlate : evt.place < row.place) : verifyFullChainAsync secretSalt stored = false := by
  generalize hnew : linked secretSalt rows evt = new at hhash
  have hplace : new.place = evt.place := by rw [← hnew]; rfl
  unfold appendAsync at hstored
  dsimp only at hstored
  split at hstored
  · cases hstored
  rename_i hunique
  rw [hnew] at hstored hunique
  obtain rfl := Option.some.inj hstored
  have hunique : ∀ r ∈ rows, r.eventId ≠ new.eventId ∧ r.currentHash ≠ new.currentHash := by
    simpa only [List.any_eq_true, Bool.or_eq_true, beq_iff_eq, not_exists, not_and, not_or]
      using hunique
  have hne : ∀ r ∈ rows, r.place ≠ new.place := by
    intro r hr heq
    exact (hunique r hr).1 (congrArg (fun p => (ofLex p).2) heq)
  obtain ⟨before, after, hcut, hbefore, hafter⟩ := exists_cut h.increasing hne
  have hverified := h.verified
  unfold verifyFullChainAsync at hverified ⊢
  rw [ordered_of_pairwise h.increasing, verifyFrom_iff, hcut, HashChain.linked_append] at hverified
  rw [hcut, ordered_concat (hcut ▸ h.increasing) hbefore hafter, Bool.eq_false_iff, Ne,
    verifyFrom_iff, HashChain.linked_append]
  rintro ⟨⟨-, -, hlinks⟩, -⟩
  cases after with
  | nil =>
    rw [hcut, List.append_nil] at hrow
    exact absurd (hbefore row hrow) (not_lt.mpr (hplace ▸ hlate.le))
  | cons next after =>
    -- the next event carries both the hash before the cut and the hash of the new event
    have hend : HashChain.endOf AuditEvent.currentHash genesis before = new.currentHash :=
      hverified.1.2.1.symm.trans hlinks.1
    cases before using List.reverseRecOn with
    | nil => exact hhash hend.symm
    | append_singleton before last =>
      rw [HashChain.endOf_concat] at hend
      exact (hunique last (by simp [hcut])).2 hend

theorem generateHash_first :
    generateHash "default-development-salt" (operatorEvent 1 639000000000000000) genesis =
      "bde6c9b519e21052a6c2c185b8b83000697d5425f87c4560dc763d3b15149f32" := by decide +kernel

theorem generateHash_late :
    generateHash "default-development-salt" (operatorEvent 2 638999999990000000)
      "bde6c9b519e21052a6c2c185b8b83000697d5425f87c4560dc763d3b15149f32" =
      "50a9d8f0f67770d37696991b91d96c44482d6d352466c22c01e72c7c452b1d21" := by decide +kernel

/-- An event of one second earlier that arrives second: the verifier reports a broken chain. -/
theorem late_event_breaks_chain :
    ([operatorEvent 1 639000000000000000, operatorEvent 2 638999999990000000].map
      AuditEvent.eventId).Nodup ∧
    ¬ ∀ report ∈ Machine.outputs (step "default-development-salt") []
      [operatorEvent 1 639000000000000000, operatorEvent 2 638999999990000000],
      report = true := by
  refine ⟨by decide, ?_⟩
  have hfirst : linked "default-development-salt" [] (operatorEvent 1 639000000000000000) =
      { operatorEvent 1 639000000000000000 with
        previousHash := genesis
        currentHash := "bde6c9b519e21052a6c2c185b8b83000697d5425f87c4560dc763d3b15149f32" } := by
    simp only [linked, latestFirst, List.mergeSort_nil, List.head?_nil, Option.map_none,
      Option.getD_none, generateHash_first]
  have hlate : linked "default-development-salt"
      [linked "default-development-salt" [] (operatorEvent 1 639000000000000000)]
      (operatorEvent 2 638999999990000000) =
      { operatorEvent 2 638999999990000000 with
        previousHash := "bde6c9b519e21052a6c2c185b8b83000697d5425f87c4560dc763d3b15149f32"
        currentHash := "50a9d8f0f67770d37696991b91d96c44482d6d352466c22c01e72c7c452b1d21" } := by
    rw [hfirst]
    simp only [linked, latestFirst, List.mergeSort_singleton, List.head?_cons, Option.map_some,
      Option.getD_some, generateHash_late]
  have hstep : (step "default-development-salt" [] (operatorEvent 1 639000000000000000)).1 =
      [linked "default-development-salt" [] (operatorEvent 1 639000000000000000)] := rfl
  have hintact : Intact "default-development-salt"
      [linked "default-development-salt" [] (operatorEvent 1 639000000000000000)] :=
    hstep ▸ intact_nil.step (fun _ h => absurd h List.not_mem_nil)
  obtain ⟨stored, hstored⟩ : ∃ stored, appendAsync "default-development-salt"
      [linked "default-development-salt" [] (operatorEvent 1 639000000000000000)]
      (operatorEvent 2 638999999990000000) = some stored := by
    unfold appendAsync
    dsimp only
    rw [hlate, hfirst]
    exact ⟨_, if_neg (by decide)⟩
  have hbroken : verifyFullChainAsync "default-development-salt" stored = false := by
    refine not_verified_of_late hintact hstored ?_ List.mem_cons_self ?_
    · rw [hlate]
      decide
    · rw [hfirst]
      decide
  intro hall
  have hreport := hall (verifyFullChainAsync "default-development-salt" stored) <| by
    rw [Machine.outputs_cons, Machine.outputs_cons, hstep]
    simp [step, hstored]
  rw [hbroken] at hreport
  exact absurd hreport (by decide)

end OpenBridge.Audit
