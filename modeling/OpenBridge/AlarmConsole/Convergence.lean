import OpenBridge.AlarmConsole.AlarmStore
import OpenBridge.Foundation.Machine

/-!
# Alarm console: the store and the server agree

An alarm of which no delta is under way is shown exactly when it is active, once a hydration has
ended.
-/

namespace OpenBridge.AlarmConsole

open OpenBridge.Foundation

/-! ## What the store shows of an alarm -/

def shown (alarms : Dict String ActiveAlarm) (k : String) : Option AlarmDetails :=
  (alarms.get? k).map ActiveAlarm.toAlarmDetails

def effective (existing : Option ActiveAlarm) (incoming : ActiveAlarm) : AlarmDetails :=
  match existing with
  | some e =>
      if incoming.eventTimeEpochMs < e.eventTimeEpochMs then e.toAlarmDetails
      else incoming.toAlarmDetails
  | none => incoming.toAlarmDetails

theorem mapHubAlarmPayload_details (raw : RawAlarm) (existing : Option ActiveAlarm) :
    (mapHubAlarmPayload raw existing).toAlarmDetails = effective existing (hubAlarm raw) := by
  cases existing with
  | none => rfl
  | some e => exact upsertAlarm_details (.inl rfl)

theorem shown_erase (alarms : Dict String ActiveAlarm) (k k' : String) :
    shown (alarms.erase k) k' = if k' = k then none else shown alarms k' := by
  unfold shown
  rw [Dict.get?_erase]
  split <;> rfl

theorem shown_set (alarms : Dict String ActiveAlarm) (k k' : String) (a : ActiveAlarm) :
    shown (alarms.set k a) k' = if k' = k then some a.toAlarmDetails else shown alarms k' := by
  unfold shown
  rw [Dict.get?_set]
  split <;> rfl

/-- The alarms of a store are displayable and active, each under its id. -/
def Stored (alarms : Dict String ActiveAlarm) : Prop :=
  ∀ k d, shown alarms k = some d → d.id = k ∧ isDisplayableOpcAlarm d = true ∧
    d.conditionActive = true

theorem id_effective {alarms : Dict String ActiveAlarm} (h : Stored alarms) (a : ActiveAlarm) :
    (effective (alarms.get? a.id) a).id = a.id := by
  unfold effective
  cases hget : alarms.get? a.id with
  | none => rfl
  | some e =>
    dsimp only
    split
    · exact (h a.id e.toAlarmDetails (by unfold shown; rw [hget]; rfl)).1
    · rfl

theorem shown_applyPayload (connected : List String) {alarms : Dict String ActiveAlarm}
    (h : Stored alarms) (isUpdate : Bool) (raw : RawAlarm) (k : String) :
    shown (applyPayload connected alarms isUpdate raw) k =
      if k = raw.id then
        (some (effective (alarms.get? raw.id) (hubAlarm raw))).filter
          (alarmMatchesConnectedOpcServer · connected)
      else shown alarms k := by
  have hdetails := mapHubAlarmPayload_details raw (alarms.get? raw.id)
  have hid : (effective (alarms.get? raw.id) (hubAlarm raw)).id = raw.id :=
    id_effective h (hubAlarm raw)
  unfold applyPayload
  dsimp only
  rw [hdetails, hid]
  generalize effective (alarms.get? raw.id) (hubAlarm raw) = eff at hdetails
  cases hmatch : alarmMatchesConnectedOpcServer eff connected with
  | false =>
    rw [Option.filter_some_neg (by simp [hmatch])]
    exact shown_erase alarms raw.id k
  | true =>
    have hactive : eff.conditionActive = true := by
      unfold alarmMatchesConnectedOpcServer at hmatch
      rw [Bool.and_eq_true, Bool.and_eq_true] at hmatch
      exact hmatch.1.2
    rw [hactive, Option.filter_some_pos (by simp [hmatch])]
    simp only [Bool.not_true, Bool.and_false, Bool.false_eq_true, if_false]
    cases hget : alarms.get? raw.id with
    | none =>
      rw [hget] at hdetails
      dsimp only
      rw [shown_set, hdetails]
    | some existing =>
      rw [hget] at hdetails
      have hnext : (upsertAlarm existing (mapHubAlarmPayload raw (some existing))).toAlarmDetails =
          eff := (upsertAlarm_twice_details rfl).trans hdetails
      dsimp only
      split
      · rename_i hequal
        -- the alarm is kept: it is the one that was to be set
        by_cases hk : k = raw.id
        · subst hk
          rw [if_pos rfl, shown, hget, ← hnext]
          exact congrArg some
            ((same_of_alarmsEqual hequal).congr ActiveAlarm.toAlarmDetails fun _ _ => rfl)
        · rw [if_neg hk]
      · rw [shown_set, hnext]

theorem shown_applyDelta_of_ne (connected : List String) {alarms : Dict String ActiveAlarm}
    (h : Stored alarms) (d : HubDelta) {k : String} (hk : k ≠ d.id) :
    shown (applyDelta connected alarms d) k = shown alarms k := by
  cases d with
  | clear alarmId => exact (shown_erase alarms alarmId k).trans (if_neg hk)
  | new raw => exact (shown_applyPayload connected h false raw k).trans (if_neg hk)
  | update raw => exact (shown_applyPayload connected h true raw k).trans (if_neg hk)

theorem matches_iff {d : AlarmDetails} {connected : List String} :
    alarmMatchesConnectedOpcServer d connected = true ↔
      isDisplayableOpcAlarm d = true ∧ d.conditionActive = true ∧
        onConnectedServer d connected = true := by
  unfold alarmMatchesConnectedOpcServer
  rw [Bool.and_eq_true, Bool.and_eq_true, and_assoc]

theorem stored_applyPayload (connected : List String) {alarms : Dict String ActiveAlarm}
    (h : Stored alarms) (isUpdate : Bool) (raw : RawAlarm) :
    Stored (applyPayload connected alarms isUpdate raw) := by
  intro k d hd
  rw [shown_applyPayload connected h] at hd
  split at hd
  · rename_i hk
    obtain ⟨rfl, hmatch⟩ := Option.filter_eq_some_iff.mp hd |>.imp_left Option.some.inj
    have hmatch := matches_iff.mp hmatch
    exact ⟨(id_effective h (hubAlarm raw)).trans hk.symm, hmatch.1, hmatch.2.1⟩
  · exact h k d hd

theorem stored_applyDelta (connected : List String) {alarms : Dict String ActiveAlarm}
    (h : Stored alarms) (d : HubDelta) : Stored (applyDelta connected alarms d) := by
  cases d with
  | clear alarmId =>
    intro k d hd
    have hd := (shown_erase alarms alarmId k).symm.trans hd
    split at hd
    · cases hd
    · exact h k d hd
  | new raw => exact stored_applyPayload connected h false raw
  | update raw => exact stored_applyPayload connected h true raw

/-! ## Agreement -/

def Shows (connected : List String) (alarms : Dict String ActiveAlarm) (k : String) : Prop :=
  ∃ d, shown alarms k = some d ∧ onConnectedServer d connected = true

def expects (connected : List String) (server : Dict String RawAlarm) (k : String) : Bool :=
  match server.get? k with
  | some raw => onConnectedServer (mapActiveAlarmDto raw).toAlarmDetails connected
  | none => false

/-- The alarms of a server are active and displayable, each under its id. -/
def Served (server : Dict String RawAlarm) : Prop :=
  ∀ k raw, server.get? k = some raw → raw.id = k ∧
    (mapActiveAlarmDto raw).conditionActive = true ∧
    isDisplayableOpcAlarm (mapActiveAlarmDto raw).toAlarmDetails = true

/-- The last of the deltas of an alarm that are under way tells what the server has of it. -/
def Tracked (server : Dict String RawAlarm) (out : List HubDelta) : Prop :=
  ∀ pre d post, out = pre ++ d :: post → (∀ d' ∈ post, d'.id ≠ d.id) →
    server.get? d.id = d.result

/-- The covered alarms of which nothing is under way are shown exactly when they are active. -/
def Agrees (server : Dict String RawAlarm) (out : List HubDelta) (connected : List String)
    (alarms : Dict String ActiveAlarm) (covered : String → Prop) : Prop :=
  ∀ k, covered k → (∀ d ∈ out, d.id ≠ k) →
    (Shows connected alarms k ↔ expects connected server k = true)

/-- An alarm that another one is merged into may be newer only when both match or none. -/
def NotOverruled (connected : List String) (alarms : Dict String ActiveAlarm)
    (incoming : ActiveAlarm) : Prop :=
  match alarms.get? incoming.id with
  | some e => incoming.eventTimeEpochMs < e.eventTimeEpochMs →
      alarmMatchesConnectedOpcServer e.toAlarmDetails connected =
        alarmMatchesConnectedOpcServer incoming.toAlarmDetails connected
  | none => True

instance (connected : List String) (alarms : Dict String ActiveAlarm) (incoming : ActiveAlarm) :
    Decidable (NotOverruled connected alarms incoming) := by
  unfold NotOverruled
  cases alarms.get? incoming.id with
  | some e => exact inferInstanceAs (Decidable (_ → _))
  | none => exact isTrue trivial

theorem matches_effective {connected : List String} {alarms : Dict String ActiveAlarm}
    {incoming : ActiveAlarm} (h : NotOverruled connected alarms incoming) :
    alarmMatchesConnectedOpcServer (effective (alarms.get? incoming.id) incoming) connected =
      alarmMatchesConnectedOpcServer incoming.toAlarmDetails connected := by
  unfold NotOverruled at h
  unfold effective
  cases hget : alarms.get? incoming.id with
  | none => rfl
  | some e =>
    rw [hget] at h
    dsimp only
    split
    · exact h ‹_›
    · rfl

def Timely (connected : List String) (alarms : Dict String ActiveAlarm) : HubDelta → Prop
  | .clear _ => True
  | .new raw | .update raw => NotOverruled connected alarms (hubAlarm raw)

instance (connected : List String) (alarms : Dict String ActiveAlarm) :
    ∀ d, Decidable (Timely connected alarms d)
  | .clear _ => isTrue trivial
  | .new raw | .update raw =>
      inferInstanceAs (Decidable (NotOverruled connected alarms (hubAlarm raw)))

theorem shows_applyPayload {connected : List String} {alarms : Dict String ActiveAlarm}
    (h : Stored alarms) (isUpdate : Bool) {raw : RawAlarm}
    (htimely : NotOverruled connected alarms (hubAlarm raw)) :
    Shows connected (applyPayload connected alarms isUpdate raw) raw.id ↔
      alarmMatchesConnectedOpcServer (mapActiveAlarmDto raw).toAlarmDetails connected = true := by
  have hmatch := matches_effective htimely
  unfold Shows
  rw [shown_applyPayload connected h, if_pos rfl]
  constructor
  · rintro ⟨d, hd, -⟩
    obtain ⟨rfl, hd⟩ := Option.filter_eq_some_iff.mp hd |>.imp_left Option.some.inj
    exact hmatch.symm.trans hd
  · intro hraw
    have heff := hmatch.trans hraw
    exact ⟨_, Option.filter_some_pos heff, (matches_iff.mp heff).2.2⟩

theorem expects_of_payload {connected : List String} {server : Dict String RawAlarm}
    (hserved : Served server) {raw : RawAlarm}
    (h : server.get? raw.id =
      if (mapActiveAlarmDto raw).conditionActive then some raw else none) :
    expects connected server raw.id = true ↔
      alarmMatchesConnectedOpcServer (mapActiveAlarmDto raw).toAlarmDetails connected = true := by
  unfold expects
  rw [matches_iff]
  cases hactive : (mapActiveAlarmDto raw).conditionActive with
  | false =>
    rw [hactive] at h
    rw [h]
    exact ⟨nofun, fun hmatch => nomatch hmatch.2.1⟩
  | true =>
    rw [hactive, if_pos rfl] at h
    rw [h]
    exact ⟨fun hon => ⟨(hserved _ raw h).2.2, rfl, hon⟩, fun hmatch => hmatch.2.2⟩

theorem Agrees.applyDelta {server : Dict String RawAlarm} {d : HubDelta} {rest : List HubDelta}
    {connected : List String} {alarms : Dict String ActiveAlarm} {covered : String → Prop}
    (h : Agrees server (d :: rest) connected alarms covered) (hstored : Stored alarms)
    (hserved : Served server) (htracked : Tracked server (d :: rest))
    (htimely : Timely connected alarms d) :
    Agrees server rest connected (applyDelta connected alarms d) covered := by
  intro k hk hout
  by_cases hkd : k = d.id
  · subst hkd
    have hresult := htracked [] d rest rfl hout
    cases d with
    | clear alarmId =>
      have hnone : shown (alarms.erase alarmId) alarmId = none :=
        (shown_erase alarms alarmId alarmId).trans (if_pos rfl)
      have hserver : server.get? alarmId = none := hresult
      refine iff_of_false ?_ ?_
      · rintro ⟨d, hd, -⟩
        exact nomatch hnone.symm.trans hd
      · show ¬ expects connected server alarmId = true
        unfold expects
        rw [hserver]
        exact nofun
    | new raw =>
      exact (shows_applyPayload hstored false htimely).trans
        (expects_of_payload hserved hresult).symm
    | update raw =>
      exact (shows_applyPayload hstored true htimely).trans
        (expects_of_payload hserved hresult).symm
  · have hshown := shown_applyDelta_of_ne connected hstored d hkd
    unfold Shows
    rw [hshown]
    refine h k hk fun d' hd' => ?_
    rcases List.mem_cons.mp hd' with rfl | hd'
    · exact Ne.symm hkd
    · exact hout d' hd'

theorem Tracked.tail {server : Dict String RawAlarm} {d : HubDelta} {rest : List HubDelta}
    (h : Tracked server (d :: rest)) : Tracked server rest := by
  intro pre d' post heq hpost
  exact h (d :: pre) d' post (by rw [heq, List.cons_append]) hpost

def BatchTimely (connected : List String) :
    Dict String ActiveAlarm → List HubDelta → Prop
  | _, [] => True
  | alarms, d :: batch =>
      Timely connected alarms d ∧ BatchTimely connected (applyDelta connected alarms d) batch

instance decidableBatchTimely (connected : List String) : ∀ alarms batch,
    Decidable (BatchTimely connected alarms batch)
  | _, [] => isTrue trivial
  | alarms, d :: batch =>
      have := decidableBatchTimely connected (applyDelta connected alarms d) batch
      inferInstanceAs (Decidable (Timely connected alarms d ∧
        BatchTimely connected (applyDelta connected alarms d) batch))

theorem Agrees.flush {server : Dict String RawAlarm} {batch rest : List HubDelta}
    {connected : List String} {alarms : Dict String ActiveAlarm} {covered : String → Prop}
    (h : Agrees server (batch ++ rest) connected alarms covered) (hstored : Stored alarms)
    (hserved : Served server) (htracked : Tracked server (batch ++ rest))
    (htimely : BatchTimely connected alarms batch) :
    Agrees server rest connected (batch.foldl (AlarmConsole.applyDelta connected) alarms)
        covered ∧
      Stored (batch.foldl (AlarmConsole.applyDelta connected) alarms) ∧ Tracked server rest := by
  induction batch generalizing alarms with
  | nil => exact ⟨h, hstored, htracked⟩
  | cons d batch ih =>
    exact ih (h.applyDelta hstored hserved htracked htimely.1)
      (stored_applyDelta connected hstored d) htracked.tail htimely.2

/-! ## The server tells of a change -/

section Told

variable {server : Dict String RawAlarm} {out : List HubDelta}

def served (server : Dict String RawAlarm) (d : HubDelta) : Dict String RawAlarm :=
  match d.result with
  | some raw => server.set d.id raw
  | none => server.erase d.id

theorem get?_served (server : Dict String RawAlarm) (d : HubDelta) (k : String) :
    (served server d).get? k = if k = d.id then d.result else server.get? k := by
  unfold served
  cases d.result with
  | none => exact Dict.get?_erase server d.id k
  | some raw => exact Dict.get?_set server d.id k raw

theorem result_eq_some {d : HubDelta} {raw : RawAlarm} (h : d.result = some raw) :
    raw.id = d.id ∧ (mapActiveAlarmDto raw).conditionActive = true := by
  have hpayload {raw' : RawAlarm}
      (h : (if (mapActiveAlarmDto raw').conditionActive then some raw' else none) = some raw) :
      raw.id = raw'.id ∧ (mapActiveAlarmDto raw).conditionActive = true := by
    split at h
    · rename_i hactive
      obtain rfl := Option.some.inj h
      exact ⟨rfl, hactive⟩
    · cases h
  cases d with
  | clear alarmId => cases h
  | new raw' => exact hpayload h
  | update raw' => exact hpayload h

theorem Served.told (h : Served server) {d : HubDelta} (hd : ∀ raw, d.result = some raw →
    isDisplayableOpcAlarm (mapActiveAlarmDto raw).toAlarmDetails = true) :
    Served (served server d) := by
  intro k raw hget
  rw [get?_served] at hget
  split at hget
  · rename_i hk
    have hresult := result_eq_some hget
    exact ⟨hresult.1.trans hk.symm, hresult.2, hd raw hget⟩
  · exact h k raw hget

theorem Tracked.told (h : Tracked server out) (d : HubDelta) :
    Tracked (served server d) (out ++ [d]) := by
  intro pre d' post heq hpost
  rcases List.eq_nil_or_concat post with rfl | ⟨post', last, rfl⟩
  · obtain ⟨-, hlast⟩ := List.append_inj' heq rfl
    obtain rfl := List.head_eq_of_cons_eq hlast
    rw [get?_served, if_pos rfl]
  · rw [List.concat_eq_append] at heq hpost
    have hsplit : out ++ [d] = (pre ++ d' :: post') ++ [last] := by
      rw [heq, List.append_assoc, List.cons_append]
    obtain ⟨hout, hlast⟩ := List.append_inj' hsplit rfl
    obtain rfl := List.head_eq_of_cons_eq hlast
    rw [get?_served, if_neg (Ne.symm (hpost d (List.mem_append_right _ List.mem_cons_self)))]
    exact h pre d' post' hout fun x hx => hpost x (List.mem_append_left _ hx)

theorem Agrees.told {connected : List String} {alarms : Dict String ActiveAlarm}
    {covered : String → Prop} (h : Agrees server out connected alarms covered) (d : HubDelta) :
    Agrees (served server d) (out ++ [d]) connected alarms covered := by
  intro k hk hout
  have hne : k ≠ d.id := Ne.symm (hout d (List.mem_append_right _ List.mem_cons_self))
  unfold expects
  rw [get?_served, if_neg hne]
  exact h k hk fun d' hd' => hout d' (List.mem_append_left _ hd')

end Told

/-! ## A page -/

section Page

variable {server : Dict String RawAlarm} {out : List HubDelta} {connected : List String}

theorem shown_applyListed {alarms : Dict String ActiveAlarm} (fetched : List String)
    {a : ActiveAlarm} (ha : a.commandId = none)
    (hmatch : alarmMatchesConnectedOpcServer a.toAlarmDetails connected = true) (k : String) :
    shown (Console.applyListed connected (alarms, fetched) a).1 k =
      if k = a.id then some (effective (alarms.get? a.id) a) else shown alarms k := by
  unfold Console.applyListed
  rw [if_pos hmatch]
  dsimp only
  cases hget : alarms.get? a.id with
  | none => exact shown_set alarms a.id k a
  | some prev =>
    have hnext := upsertAlarm_details (e := prev) (.inl ha)
    dsimp only
    split
    · rename_i hsame
      by_cases hk : k = a.id
      · subst hk
        rw [if_pos rfl, shown, hget]
        refine congrArg some (Eq.trans ?_ hnext)
        rw [hsame]
      · rw [if_neg hk]
    · rw [shown_set, hnext]
      rfl

/-- A listed alarm is still active on a connected server, or something of it is under way; and no
newer alarm is in its way. -/
def ListedInOrder (server : Dict String RawAlarm) (out : List HubDelta) (connected : List String)
    (alarms : Dict String ActiveAlarm) (a : ActiveAlarm) : Prop :=
  alarmMatchesConnectedOpcServer a.toAlarmDetails connected = true →
    ((∃ d ∈ out, d.id = a.id) ∨ expects connected server a.id = true) ∧
      NotOverruled connected alarms a

instance (server : Dict String RawAlarm) (out : List HubDelta) (connected : List String)
    (alarms : Dict String ActiveAlarm) (a : ActiveAlarm) :
    Decidable (ListedInOrder server out connected alarms a) :=
  inferInstanceAs (Decidable (_ → _ ∧ _))

theorem applyListed_of_not {s : Dict String ActiveAlarm × List String} {a : ActiveAlarm}
    (h : alarmMatchesConnectedOpcServer a.toAlarmDetails connected = false) :
    Console.applyListed connected s a = s := if_neg (by simp [h])

theorem stored_applyListed {alarms : Dict String ActiveAlarm} (h : Stored alarms)
    (fetched : List String) {a : ActiveAlarm} (ha : a.commandId = none)
    (horder : ListedInOrder server out connected alarms a) :
    Stored (Console.applyListed connected (alarms, fetched) a).1 := by
  cases hmatch : alarmMatchesConnectedOpcServer a.toAlarmDetails connected with
  | false => rwa [applyListed_of_not hmatch]
  | true =>
    intro k d hd
    rw [shown_applyListed fetched ha hmatch] at hd
    split at hd
    · rename_i hk
      obtain rfl := Option.some.inj hd
      have heff := matches_iff.mp ((matches_effective (horder hmatch).2).trans hmatch)
      exact ⟨(id_effective h a).trans hk.symm, heff.1, heff.2.1⟩
    · exact h k d hd

theorem Agrees.applyListed {alarms : Dict String ActiveAlarm} {fetched : List String}
    (h : Agrees server out connected alarms (· ∈ fetched)) {a : ActiveAlarm}
    (ha : a.commandId = none) (horder : ListedInOrder server out connected alarms a) :
    Agrees server out connected (Console.applyListed connected (alarms, fetched) a).1
      (· ∈ (Console.applyListed connected (alarms, fetched) a).2) := by
  cases hmatch : alarmMatchesConnectedOpcServer a.toAlarmDetails connected with
  | false => rwa [applyListed_of_not hmatch]
  | true =>
    intro k hk hout
    have hshown : shown (Console.applyListed connected (alarms, fetched) a).1 k =
        if k = a.id then some (effective (alarms.get? a.id) a) else shown alarms k :=
      shown_applyListed fetched ha hmatch k
    obtain ⟨hactive, hnewer⟩ := horder hmatch
    unfold Shows
    rw [hshown]
    by_cases hka : k = a.id
    · subst hka
      rw [if_pos rfl]
      have heff := (matches_effective hnewer).trans hmatch
      refine iff_of_true ⟨_, rfl, (matches_iff.mp heff).2.2⟩ ?_
      rcases hactive with ⟨d, hd, hid⟩ | hactive
      · exact absurd hid (hout d hd)
      · exact hactive
    · rw [if_neg hka]
      refine h k ?_ hout
      have hfetched : (Console.applyListed connected (alarms, fetched) a).2 =
          a.id :: fetched := by
        unfold Console.applyListed
        rw [if_pos hmatch]
      rw [hfetched] at hk
      exact (List.mem_cons.mp hk).resolve_left hka

def PageInOrder (server : Dict String RawAlarm) (out : List HubDelta) (connected : List String) :
    Dict String ActiveAlarm × List String → List ActiveAlarm → Prop
  | _, [] => True
  | s, a :: page =>
      ListedInOrder server out connected s.1 a ∧
        PageInOrder server out connected (Console.applyListed connected s a) page

instance decidablePageInOrder (server : Dict String RawAlarm) (out : List HubDelta)
    (connected : List String) : ∀ s page, Decidable (PageInOrder server out connected s page)
  | _, [] => isTrue trivial
  | s, a :: page =>
      have := decidablePageInOrder server out connected (Console.applyListed connected s a) page
      inferInstanceAs (Decidable (ListedInOrder server out connected s.1 a ∧
        PageInOrder server out connected (Console.applyListed connected s a) page))

theorem Agrees.page {s : Dict String ActiveAlarm × List String}
    (h : Agrees server out connected s.1 (· ∈ s.2)) (hstored : Stored s.1)
    {page : List ActiveAlarm} (hpage : ∀ a ∈ page, a.commandId = none)
    (horder : PageInOrder server out connected s page) :
    Agrees server out connected (page.foldl (Console.applyListed connected) s).1
        (· ∈ (page.foldl (Console.applyListed connected) s).2) ∧
      Stored (page.foldl (Console.applyListed connected) s).1 := by
  induction page generalizing s with
  | nil => exact ⟨h, hstored⟩
  | cons a page ih =>
    have ha := hpage a List.mem_cons_self
    exact ih (h.applyListed ha horder.1) (stored_applyListed hstored s.2 ha horder.1)
      (fun b hb => hpage b (List.mem_cons_of_mem _ hb)) horder.2

theorem connectServer_feed {ids : List String} (h : ids = [] ∨ ids = [HTTP_FEED_SERVER_ID])
    (a : ActiveAlarm) :
    Console.connectServer ids a = [] ∨ Console.connectServer ids a = [HTTP_FEED_SERVER_ID] := by
  unfold Console.connectServer
  split
  · rename_i hmatch
    have hfeed := (matches_iff.mp hmatch).2.2
    unfold onConnectedServer at hfeed
    rw [if_neg (by simp), decide_eq_true_eq] at hfeed
    rw [hfeed]
    generalize HTTP_FEED_SERVER_ID = feed at h ⊢
    rcases h with rfl | rfl
    · exact .inr (List.insert_of_not_mem List.not_mem_nil)
    · exact .inr (List.insert_of_mem List.mem_cons_self)
  · exact h

theorem foldl_connectServer (page : List ActiveAlarm) {ids : List String}
    (h : ids = [] ∨ ids = [HTTP_FEED_SERVER_ID]) :
    page.foldl Console.connectServer ids = [] ∨
      page.foldl Console.connectServer ids = [HTTP_FEED_SERVER_ID] := by
  induction page generalizing ids with
  | nil => exact h
  | cons a page ih => exact ih (connectServer_feed h a)

theorem onConnectedServer_afterPage (page : List ActiveAlarm) (d : AlarmDetails) :
    onConnectedServer d (Console.connectedAfterPage connected page) =
      onConnectedServer d connected := by
  unfold Console.connectedAfterPage
  split
  · rename_i hnil
    obtain rfl := List.eq_nil_of_length_eq_zero hnil
    rcases foldl_connectServer page (.inl rfl) with h | h
    · rw [h]
    · rw [h]
      unfold onConnectedServer
      rw [if_pos (by decide), if_neg (by decide), List.contains_cons, List.contains_nil,
        Bool.or_false]
      rfl
  · rfl

end Page

/-! ## Runs -/

namespace Console

def Covered (s : Console) (k : String) : Prop :=
  match s.hydration with
  | .never => False
  | .requesting _ _ _ fetched | .reading _ _ _ fetched _ _ | .reconciling fetched => k ∈ fetched
  | .finished => True

structure Agreeing (s : Console) : Prop where
  stored : Stored s.alarms
  served : Served s.server
  tracked : Tracked s.server s.outstanding
  agrees : Agrees s.server s.outstanding s.connectedOpcServerIds s.alarms s.Covered

/-- When an event is in order: what the server tells of names a source and a condition; no delta is
older than an alarm that it would have to overrule; a page lists no alarm that has ended; and the
pages of a hydration have listed every active alarm.  Alarms of which a delta is under way do not
count. -/
def InOrder (s : Console) : Event → Prop
  | .told d => ∀ raw ∈ d.result.toList,
      isDisplayableOpcAlarm (mapActiveAlarmDto raw).toAlarmDetails = true
  | .flush => BatchTimely s.connectedOpcServerIds s.alarms s.pendingHubDeltas
  | .applyPage =>
      match s.hydration with
      | .reading _ _ _ fetched page _ =>
          PageInOrder s.server s.outstanding
            (connectedAfterPage s.connectedOpcServerIds (page.map mapActiveAlarmDto))
            (s.alarms, fetched) (page.map mapActiveAlarmDto)
      | _ => True
  | .reconcile =>
      match s.hydration with
      | .reconciling fetched => ∀ k ∈ s.server.keys,
          expects s.connectedOpcServerIds s.server k = true →
            (∃ d ∈ s.outstanding, d.id = k) ∨ k ∈ fetched
      | _ => True
  | .deliver | .hydrate _ | .readPage => True

instance : ∀ s e, Decidable (InOrder s e)
  | _, .told d => inferInstanceAs (Decidable (∀ raw ∈ d.result.toList,
      isDisplayableOpcAlarm (mapActiveAlarmDto raw).toAlarmDetails = true))
  | s, .flush => decidableBatchTimely s.connectedOpcServerIds s.alarms s.pendingHubDeltas
  | ⟨server, inFlight, pending, alarms, connected, .reading _ _ _ fetched page _⟩, .applyPage =>
      decidablePageInOrder server (pending ++ inFlight)
        (connectedAfterPage connected (page.map mapActiveAlarmDto)) (alarms, fetched)
        (page.map mapActiveAlarmDto)
  | ⟨_, _, _, _, _, .never⟩, .applyPage | ⟨_, _, _, _, _, .requesting ..⟩, .applyPage
  | ⟨_, _, _, _, _, .reconciling _⟩, .applyPage | ⟨_, _, _, _, _, .finished⟩, .applyPage =>
      isTrue trivial
  | ⟨server, inFlight, pending, _, connected, .reconciling fetched⟩, .reconcile =>
      inferInstanceAs (Decidable (∀ k ∈ server.keys, expects connected server k = true →
        (∃ d ∈ pending ++ inFlight, d.id = k) ∨ k ∈ fetched))
  | ⟨_, _, _, _, _, .never⟩, .reconcile | ⟨_, _, _, _, _, .requesting ..⟩, .reconcile
  | ⟨_, _, _, _, _, .reading ..⟩, .reconcile | ⟨_, _, _, _, _, .finished⟩, .reconcile =>
      isTrue trivial
  | _, .deliver | _, .hydrate _ | _, .readPage => isTrue trivial

variable {fallback : Option String}

theorem agreeing_told {s : Console} (h : s.Agreeing) {d : HubDelta} (horder : s.InOrder (.told d)) :
    (step fallback s (.told d)).1.Agreeing where
  stored := h.stored
  served := h.served.told fun raw hraw => horder raw (Option.mem_toList.mpr hraw)
  tracked := by
    have := h.tracked.told d
    unfold outstanding at this ⊢
    rwa [List.append_assoc] at this
  agrees := by
    have := h.agrees.told d
    unfold outstanding at this ⊢
    rwa [List.append_assoc] at this

theorem agreeing_deliver {s : Console} (h : s.Agreeing) :
    (step fallback s .deliver).1.Agreeing := by
  unfold step
  dsimp only
  split
  · rename_i d rest hflight
    have hout : s.pendingHubDeltas ++ [d] ++ rest = s.outstanding := by
      unfold outstanding
      rw [hflight, List.append_assoc]
      rfl
    exact ⟨h.stored, h.served, (congrArg (Tracked s.server) hout).mpr h.tracked, by
      have := h.agrees
      rwa [← hout] at this⟩
  · exact h

theorem agreeing_flush {s : Console} (h : s.Agreeing) (horder : s.InOrder .flush) :
    (step fallback s .flush).1.Agreeing := by
  obtain ⟨hagrees, hstored, htracked⟩ :=
    h.agrees.flush h.stored h.served h.tracked horder
  exact ⟨hstored, h.served, htracked, hagrees⟩

theorem agreeing_hydrate {s : Console} (h : s.Agreeing) (servers : Option (List String)) :
    (step fallback s (.hydrate servers)).1.Agreeing := by
  have hstart (connected : List String) (serverId : Option String) :
      Agreeing { s with
        connectedOpcServerIds := connected
        hydration := .requesting serverId 1 0 [] } :=
    ⟨h.stored, h.served, h.tracked, fun k hk => absurd hk List.not_mem_nil⟩
  unfold step
  dsimp only
  split
  · exact hstart _ _
  · exact hstart _ _
  · exact h

theorem agreeing_readPage {s : Console} (h : s.Agreeing) :
    (step fallback s .readPage).1.Agreeing := by
  unfold step
  dsimp only
  split
  · rename_i serverId pageNumber received fetched hhydration
    refine ⟨h.stored, h.served, h.tracked, ?_⟩
    have hagrees := h.agrees
    unfold Covered at hagrees
    rw [hhydration] at hagrees
    exact hagrees
  · exact h

theorem agreeing_applyPage {s : Console} (h : s.Agreeing) (horder : s.InOrder .applyPage) :
    (step fallback s .applyPage).1.Agreeing := by
  unfold InOrder at horder
  unfold step
  dsimp only at horder ⊢
  split
  · rename_i serverId pageNumber received fetched page totalCount hhydration
    rw [hhydration] at horder
    dsimp only at horder
    have hagrees := h.agrees
    unfold Covered at hagrees
    rw [hhydration] at hagrees
    -- the servers that the page connects change nothing
    have hconnected : ∀ d, onConnectedServer d
        (connectedAfterPage s.connectedOpcServerIds (page.map mapActiveAlarmDto)) =
          onConnectedServer d s.connectedOpcServerIds :=
      onConnectedServer_afterPage (page.map mapActiveAlarmDto)
    generalize connectedAfterPage s.connectedOpcServerIds (page.map mapActiveAlarmDto) =
      connected at horder hconnected ⊢
    have hagrees' : Agrees s.server s.outstanding connected s.alarms (· ∈ fetched) := by
      intro k hk hout
      have := hagrees k hk hout
      unfold Shows expects at this ⊢
      simpa only [hconnected] using this
    have hpage : ∀ a ∈ page.map mapActiveAlarmDto, a.commandId = none := by
      intro a ha
      obtain ⟨raw, -, rfl⟩ := List.mem_map.mp ha
      rfl
    obtain ⟨hagrees'', hstored⟩ :=
      Agrees.page (s := (s.alarms, fetched)) hagrees' h.stored hpage horder
    refine ⟨hstored, h.served, h.tracked, ?_⟩
    unfold Covered
    dsimp only
    by_cases hlast : page.length < PAGE_SIZE ∨ totalCount ≤ received + page.length
    · rw [if_pos hlast]
      exact hagrees''
    · rw [if_neg hlast]
      exact hagrees''
  · exact h

theorem agreeing_reconcile {s : Console} (h : s.Agreeing) (horder : s.InOrder .reconcile) :
    (step fallback s .reconcile).1.Agreeing := by
  unfold InOrder at horder
  unfold step
  dsimp only at horder ⊢
  split
  · rename_i fetched hhydration
    rw [hhydration] at horder
    dsimp only at horder
    have hagrees := h.agrees
    unfold Covered at hagrees
    rw [hhydration] at hagrees
    have hfilter (k : String) (d : AlarmDetails) :
        shown (s.alarms.filter fun e =>
          !alarmMatchesConnectedOpcServer e.2.toAlarmDetails s.connectedOpcServerIds ||
            fetched.contains e.1) k = some d ↔
        shown s.alarms k = some d ∧
          (alarmMatchesConnectedOpcServer d s.connectedOpcServerIds = false ∨ k ∈ fetched) := by
      unfold shown
      rw [Dict.get?_filter]
      simp only [Option.map_eq_some_iff, Option.filter_eq_some_iff, Bool.or_eq_true,
        Bool.not_eq_true', List.contains_iff_mem]
      constructor
      · rintro ⟨a, ⟨ha, hkeep⟩, rfl⟩
        exact ⟨⟨a, ha, rfl⟩, hkeep⟩
      · rintro ⟨⟨a, ha, rfl⟩, hkeep⟩
        exact ⟨a, ⟨ha, hkeep⟩, rfl⟩
    refine ⟨fun k d hd => h.stored k d ((hfilter k d).mp hd).1, h.served, h.tracked,
      fun k _ hout => ?_⟩
    by_cases hk : k ∈ fetched
    · refine Iff.trans ?_ (hagrees k hk hout)
      refine exists_congr fun d => and_congr_left fun _ => ?_
      rw [hfilter]
      exact and_iff_left (.inr hk)
    · refine iff_of_false ?_ fun hexpects => ?_
      · rintro ⟨d, hd, hon⟩
        obtain ⟨hshown, hkeep⟩ := (hfilter k d).mp hd
        obtain ⟨-, hdisplayable, hactive⟩ := h.stored k d hshown
        rw [matches_iff.mpr ⟨hdisplayable, hactive, hon⟩] at hkeep
        exact hk (hkeep.resolve_left (by decide))
      · have hkey : k ∈ s.server.keys := by
          rw [Dict.mem_keys_iff_isSome]
          unfold expects at hexpects
          cases hget : s.server.get? k with
          | none =>
            rw [hget] at hexpects
            cases hexpects
          | some raw => rfl
        rcases horder k hkey hexpects with ⟨d, hd, hid⟩ | hfetched
        · exact hout d hd hid
        · exact hk hfetched
  · exact h

theorem agreeing_step {s : Console} {e : Event} (h : s.Agreeing) (horder : s.InOrder e) :
    (step fallback s e).1.Agreeing := by
  cases e with
  | told d => exact agreeing_told h horder
  | deliver => exact agreeing_deliver h
  | flush => exact agreeing_flush h horder
  | hydrate servers => exact agreeing_hydrate h servers
  | readPage => exact agreeing_readPage h
  | applyPage => exact agreeing_applyPage h horder
  | reconcile => exact agreeing_reconcile h horder

theorem agreeing_start {server : Dict String RawAlarm} (h : Served server) :
    (start server).Agreeing where
  stored k d hd := by cases hd
  served := h
  tracked pre d post heq := by
    cases pre with
    | nil => cases heq
    | cons d' pre => cases heq
  agrees k hk := hk.elim

def Quiet (s : Console) : Prop := s.outstanding = [] ∧ s.hydration.isFinished = true

def Converged (s : Console) : Prop :=
  ∀ k, Shows s.connectedOpcServerIds s.alarms k ↔
    expects s.connectedOpcServerIds s.server k = true

theorem Agreeing.converged {s : Console} (h : s.Agreeing) (hquiet : s.Quiet) : s.Converged := by
  intro k
  refine h.agrees k ?_ ?_
  · have hfinished := hquiet.2
    unfold Covered
    cases hcases : s.hydration with
    | finished => trivial
    | _ =>
      rw [hcases] at hfinished
      cases hfinished
  · rw [hquiet.1]
    exact List.forall_mem_nil _

/-- In a run of events in order the store and the server agree whenever it is quiet. -/
theorem converged_of_inOrder {server : Dict String RawAlarm} (hserved : Served server)
    {es : List Event} (h : Machine.Always (step fallback) InOrder (start server) es)
    (hquiet : (Machine.stateAfter (step fallback) (start server) es).Quiet) :
    (Machine.stateAfter (step fallback) (start server) es).Converged :=
  (Machine.stateAfter_of_always (step fallback) Agreeing (fun _ _ => agreeing_step)
    (agreeing_start hserved) h).converged hquiet

def loopAlarm (time : ℤ) (active : Bool) : RawAlarm :=
  { RawAlarm.bare "7c0d" with
    serverId := some "f0af"
    sourceName := some "TIC101"
    conditionName := some "HI"
    conditionActive := some active
    eventTime := some time
    eventTimeEpochMs := some time }

def listedThenCleared : List Event :=
  [.told (.new (loopAlarm 1000 true)), .hydrate (some ["F0AF"]), .readPage, .applyPage, .deliver,
    .flush, .reconcile, .told (.update (loopAlarm 2000 false)), .deliver, .flush]

theorem served_empty : Served .empty := by
  intro k raw h
  cases h

theorem listedThenCleared_converged :
    (Machine.stateAfter (step none) (start .empty) listedThenCleared).Converged :=
  converged_of_inOrder served_empty (by decide +kernel) ⟨by decide +kernel, by decide +kernel⟩

def raisedWhileHydrating : List Event :=
  [.hydrate (some ["F0AF"]), .readPage, .told (.new (loopAlarm 1000 true)), .deliver, .flush,
    .applyPage, .reconcile]

/-- An alarm that is raised while a hydration runs is removed by it. -/
theorem raised_alarm_removed :
    Served .empty ∧
      (Machine.stateAfter (step none) (start .empty) raisedWhileHydrating).Quiet ∧
      ¬ (Machine.stateAfter (step none) (start .empty) raisedWhileHydrating).Converged := by
  refine ⟨served_empty, ⟨by decide +kernel, by decide +kernel⟩, fun h => ?_⟩
  obtain ⟨d, hd, -⟩ := (h "7c0d").mpr (by decide +kernel)
  have hnone : (shown (Machine.stateAfter (step none) (start .empty) raisedWhileHydrating).alarms
      "7c0d").isNone = true := by decide +kernel
  rw [hd] at hnone
  cases hnone

end Console

end OpenBridge.AlarmConsole
