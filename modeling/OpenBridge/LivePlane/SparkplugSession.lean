import OpenBridge.Foundation.BufferedWrites
import OpenBridge.LivePlane.AlarmMetricPublisher

/-!
# Live plane: valid Sparkplug sessions

The messages of a session are valid when a node's birth comes first, the data of a device follow a
birth that declares their metrics, an alias denotes for the receiver what the publisher means, and the
sequence numbers are consecutive modulo 256.  The publisher keeps this while the callback and the main
loop do not come between each other, publishes fail in no session that goes on, and the records of a
device all carry the metrics of its birth.
-/

namespace OpenBridge.LivePlane

open OpenBridge.Foundation

/-! ## Sessions -/

namespace SparkplugMessage

def declarations (m : SparkplugMessage) : List (ℕ × String) :=
  m.metrics.filterMap fun x => x.metricAlias.map (·, x.name)

def Declares (b : SparkplugMessage) (x : SentMetric) : Prop :=
  match x.metricAlias with
  | some a => ∃ y ∈ b.metrics, y.metricAlias = some a
  | none => ∃ y ∈ b.metrics, y.name = x.name

instance (b : SparkplugMessage) : ∀ x, Decidable (b.Declares x)
  | ⟨_, some a, _⟩ => inferInstanceAs (Decidable (∃ y ∈ b.metrics, y.metricAlias = some a))
  | ⟨name, none, _⟩ => inferInstanceAs (Decidable (∃ y ∈ b.metrics, y.name = name))

end SparkplugMessage

def receive (aliases : Dict ℕ String) (m : SparkplugMessage) : Dict ℕ String :=
  match m.kind with
  | .nbirth => .empty
  | .dbirth => Buffered.writeAll aliases m.declarations
  | .ddata => aliases

def receiver (sent : List SparkplugMessage) : Dict ℕ String := sent.foldl receive .empty

/-- What the data of a device must find in the session before them. -/
structure Answered (before : List SparkplugMessage) (m : SparkplugMessage) : Prop where
  born : ∃ b ∈ before, b.kind = .dbirth ∧ b.topic = m.topic ∧ ∀ x ∈ m.metrics, b.Declares x
  denotes : ∀ x ∈ m.metrics, ∀ a ∈ x.metricAlias, (receiver before).get? a = some x.meant

/-- The messages of a session, up to the range of the sequence numbers. -/
structure OpenSession (sent : List SparkplugMessage) : Prop where
  starts : ∀ m ∈ sent.head?, m.kind = .nbirth
  answered : ∀ before m after, sent = before ++ m :: after → m.kind = .ddata → Answered before m
  counted : ∀ (i : ℕ) (m : SparkplugMessage), sent[i]? = some m → m.seq = i

structure ValidSession (sent : List SparkplugMessage) : Prop where
  starts : ∀ m ∈ sent.head?, m.kind = .nbirth
  answered : ∀ before m after, sent = before ++ m :: after → m.kind = .ddata → Answered before m
  consecutive : ∀ (i : ℕ) (m : SparkplugMessage), sent[i]? = some m → m.seq = i % 256

theorem OpenSession.valid {sent : List SparkplugMessage} (h : OpenSession sent)
    (hrange : ∀ m ∈ sent, m.seq < 256) : ValidSession sent where
  starts := h.starts
  answered := h.answered
  consecutive i m hi := by
    have hseq := h.counted i m hi
    rw [Nat.mod_eq_of_lt (hseq ▸ hrange m (List.mem_of_getElem? hi))]
    exact hseq

theorem openSession_nil : OpenSession [] where
  starts _ h := absurd h (Option.not_mem_none _)
  answered before _ _ h := absurd h.symm (List.append_ne_nil_of_right_ne_nil before nofun)
  counted _ _ h := by cases h

theorem OpenSession.concat {sent : List SparkplugMessage} (h : OpenSession sent)
    {m : SparkplugMessage} (hstart : sent = [] → m.kind = .nbirth)
    (hanswered : m.kind = .ddata → Answered sent m) (hseq : m.seq = sent.length) :
    OpenSession (sent ++ [m]) where
  starts := by
    cases sent with
    | nil =>
      intro m' hm'
      obtain rfl := Option.some.inj hm'
      exact hstart rfl
    | cons b rest => exact h.starts
  answered := forall_split_concat (P := fun before m => m.kind = .ddata → Answered before m)
    h.answered hanswered
  counted i m' hi := by
    rcases Nat.lt_trichotomy i sent.length with hlt | rfl | hgt
    · rw [List.getElem?_append_left hlt] at hi
      exact h.counted i m' hi
    · rw [List.getElem?_concat_length] at hi
      obtain rfl := Option.some.inj hi
      exact hseq
    · rw [List.getElem?_eq_none (by rw [List.length_append]; exact hgt)] at hi
      cases hi

/-! ## The aliases -/

/-- The aliases of a registry: one for a name, and all below the counter. -/
structure Registered (aliases : Dict String ℕ) (counter : ℕ) : Prop where
  injective : ∀ n n' a, aliases.get? n = some a → aliases.get? n' = some a → n = n'
  below : ∀ n a, aliases.get? n = some a → a < counter

theorem registered_empty : Registered .empty 0 where
  injective _ _ _ h := by cases h
  below _ _ h := by cases h

theorem Registered.next {aliases : Dict String ℕ} {counter : ℕ} (h : Registered aliases counter)
    (n : String) : Registered (aliases.set n counter) (counter + 1) where
  injective n₁ n₂ a h₁ h₂ := by
    rw [Dict.get?_set] at h₁ h₂
    split at h₁ <;> split at h₂
    · rename_i h₁' h₂'
      exact h₁'.trans h₂'.symm
    · obtain rfl := Option.some.inj h₁
      exact absurd (h.below _ _ h₂) (Nat.lt_irrefl _)
    · obtain rfl := Option.some.inj h₂
      exact absurd (h.below _ _ h₁) (Nat.lt_irrefl _)
    · exact h.injective _ _ _ h₁ h₂
  below n' a h' := by
    rw [Dict.get?_set] at h'
    split at h'
    · obtain rfl := Option.some.inj h'
      exact Nat.lt_succ_self _
    · exact Nat.lt_succ_of_lt (h.below _ _ h')

def Declared (sent : List SparkplugMessage) (aliases : Dict String ℕ) : Prop :=
  ∀ b ∈ sent, b.kind = .dbirth → ∀ d ∈ b.declarations, aliases.get? d.2 = some d.1

theorem receive_births {aliases : Dict String ℕ} {counter : ℕ} (h : Registered aliases counter)
    {rest : List SparkplugMessage} (hnode : ∀ m ∈ rest, m.kind ≠ .nbirth)
    (hdeclared : Declared rest aliases) {known : Dict ℕ String}
    (hknown : ∀ a n, known.get? a = some n → aliases.get? n = some a) :
    (∀ a n, (rest.foldl receive known).get? a = some n → aliases.get? n = some a) ∧
      ∀ a n, known.get? a = some n ∨ (∃ b ∈ rest, b.kind = .dbirth ∧ (a, n) ∈ b.declarations) →
        (rest.foldl receive known).get? a = some n := by
  induction rest generalizing known with
  | nil =>
    refine ⟨hknown, fun a n hn => ?_⟩
    rcases hn with hn | ⟨b, hb, -⟩
    · exact hn
    · cases hb
  | cons m rest ih =>
    have hstep : (∀ a n, (receive known m).get? a = some n → aliases.get? n = some a) ∧
        ∀ a n, known.get? a = some n ∨ m.kind = .dbirth ∧ (a, n) ∈ m.declarations →
          (receive known m).get? a = some n := by
      unfold receive
      cases hkind : m.kind with
      | nbirth => exact absurd hkind (hnode m List.mem_cons_self)
      | ddata =>
        refine ⟨hknown, fun a n hn => ?_⟩
        rcases hn with hn | ⟨hbirth, -⟩
        · exact hn
        · cases hbirth
      | dbirth =>
        have hagree : ∀ a n, (Buffered.writeAll known m.declarations).get? a = some n →
            aliases.get? n = some a := by
          intro a n hn
          rcases Buffered.written_or_held hn with hw | hheld
          · exact hdeclared m List.mem_cons_self hkind _ hw
          · exact hknown a n hheld
        refine ⟨hagree, fun a n hn => ?_⟩
        have hname : aliases.get? n = some a := by
          rcases hn with hn | ⟨-, hn⟩
          · exact hknown a n hn
          · exact hdeclared m List.mem_cons_self hkind _ hn
        obtain ⟨n', hn'⟩ := Buffered.exists_writeAll (d := known) (k := a)
          (hn.symm.imp (fun hn => ⟨n, hn.2⟩) fun hn => ⟨n, hn⟩)
        rw [hn', h.injective n' n a (hagree a n' hn') hname]
    obtain ⟨hagree, hall⟩ := ih (fun b hb => hnode b (List.mem_cons_of_mem _ hb))
      (fun b hb => hdeclared b (List.mem_cons_of_mem _ hb)) hstep.1
    refine ⟨hagree, fun a n hn => hall a n ?_⟩
    rcases hn with hn | ⟨b, hb, hbirth, hd⟩
    · exact .inl (hstep.2 a n (.inl hn))
    · rcases List.mem_cons.mp hb with rfl | hb
      · exact .inl (hstep.2 a n (.inr ⟨hbirth, hd⟩))
      · exact .inr ⟨b, hb, hbirth, hd⟩

/-! ## The main loop by itself -/

namespace Publisher

variable {cfg : SparkplugConfig}

/-- The main loop, left alone, comes to `Q`, and the session is in order until then. -/
inductive Reaches (cfg : SparkplugConfig) (Q : Publisher → Prop) : Publisher → Prop where
  | here {s : Publisher} (h : Q s) : Reaches cfg Q s
  | next {s : Publisher} (hs : OpenSession s.sent) (h : Reaches cfg Q (s.advance cfg true)) :
      Reaches cfg Q s

def told (named aliased : Bool) (aliases : Dict String ℕ) (metric : String) : SentMetric :=
  ⟨if named then metric else "", if aliased then aliases.get? metric else none, metric⟩

def addMetrics (named aliased : Bool) (metrics : List String) (s : Publisher) : Publisher :=
  metrics.foldl (fun s m => s.addMetric named aliased m) s

theorem addMetric_todo (named aliased : Bool) (metric : String) (s : Publisher)
    (todo : List Instr) : ({ s with todo := todo }).addMetric named aliased metric =
      { s.addMetric named aliased metric with todo := todo } := by
  unfold addMetric aliasFor
  dsimp only
  split
  · cases s.nameToAlias.get? metric with
    | none => rfl
    | some a => rfl
  · rfl

theorem addMetric_sent (named aliased : Bool) (metric : String) (s : Publisher) :
    (s.addMetric named aliased metric).sent = s.sent := by
  unfold addMetric aliasFor
  dsimp only
  split
  · cases s.nameToAlias.get? metric with
    | none => rfl
    | some a => rfl
  · rfl

theorem Reaches.puts {Q : Publisher → Prop} {named aliased : Bool} {metrics : List String}
    {rest : List Instr} {s : Publisher} (hs : OpenSession s.sent)
    (htodo : s.todo = metrics.map (.put named aliased) ++ rest)
    (h : Reaches cfg Q (addMetrics named aliased metrics { s with todo := rest })) :
    Reaches cfg Q s := by
  induction metrics generalizing s with
  | nil =>
    rw [List.map_nil, List.nil_append] at htodo
    rw [← htodo] at h
    exact h
  | cons m metrics ih =>
    rw [List.map_cons, List.cons_append] at htodo
    have hadvance : s.advance cfg true =
        { s.addMetric named aliased m with todo := metrics.map (.put named aliased) ++ rest } := by
      unfold advance
      rw [htodo]
      exact addMetric_todo named aliased m s _
    refine .next hs (ih ?_ ?_ ?_)
    · rw [hadvance]
      exact (addMetric_sent named aliased m s).symm ▸ hs
    · rw [hadvance]
    · rw [hadvance]
      unfold addMetrics at h ⊢
      rw [List.foldl_cons, addMetric_todo] at h
      exact h

theorem addMetrics_eq (named aliased : Bool) (metrics : List String) (s : Publisher) :
    ∃ aliases names counter,
      addMetrics named aliased metrics s =
        { s with
          nameToAlias := aliases
          aliasToName := names
          counter := counter
          payload := { s.payload with
            metrics := s.payload.metrics ++ metrics.map (told named aliased aliases) } } ∧
        (∀ n a, s.nameToAlias.get? n = some a → aliases.get? n = some a) ∧
        (Registered s.nameToAlias s.counter → Registered aliases counter) ∧
        (aliased = true → ∀ n ∈ metrics, ∃ a, aliases.get? n = some a) := by
  induction metrics generalizing s with
  | nil =>
    refine ⟨s.nameToAlias, s.aliasToName, s.counter, ?_, fun _ _ h => h, id, fun _ _ h => ?_⟩
    · rw [List.map_nil, List.append_nil]
      rfl
    · cases h
  | cons m metrics ih =>
    have hone : ∃ aliases names counter, s.addMetric named aliased m =
        { s with
          nameToAlias := aliases
          aliasToName := names
          counter := counter
          payload := { s.payload with
            metrics := s.payload.metrics ++ [told named aliased aliases m] } } ∧
        (∀ n a, s.nameToAlias.get? n = some a → aliases.get? n = some a) ∧
        (Registered s.nameToAlias s.counter → Registered aliases counter) ∧
        (aliased = true → ∃ a, aliases.get? m = some a) := by
      cases aliased with
      | false =>
        exact ⟨s.nameToAlias, s.aliasToName, s.counter, rfl, fun _ _ h => h, id,
          fun h => absurd h Bool.false_ne_true⟩
      | true =>
        cases hget : s.nameToAlias.get? m with
        | some a =>
          refine ⟨s.nameToAlias, s.aliasToName, s.counter, ?_, fun _ _ h => h, id,
            fun _ => ⟨a, hget⟩⟩
          unfold addMetric aliasFor told
          rw [hget]
          rfl
        | none =>
          refine ⟨s.nameToAlias.set m s.counter, s.aliasToName.set s.counter m, s.counter + 1, ?_,
            fun n a hn => ?_, fun h => h.next m, fun _ => ⟨_, Dict.get?_set_self _ _ _⟩⟩
          · unfold addMetric aliasFor told
            rw [hget, Dict.get?_set_self]
            rfl
          · refine (Dict.get?_set_of_ne _ _ fun heq => ?_).trans hn
            rw [heq, hget] at hn
            cases hn
    obtain ⟨aliases, names, counter, hadd, hgrow, hreg, hhas⟩ := hone
    obtain ⟨aliases', names', counter', hadds, hgrow', hreg', hhas'⟩ :=
      ih (s.addMetric named aliased m)
    refine ⟨aliases', names', counter', ?_, ?_, ?_, ?_⟩
    · have hsame : told named aliased aliases' m = told named aliased aliases m := by
        unfold told
        cases aliased with
        | false => rfl
        | true =>
          obtain ⟨a, ha⟩ := hhas rfl
          rw [ha, hgrow' m a (by rw [hadd]; exact ha)]
      unfold addMetrics at hadds ⊢
      rw [List.foldl_cons, hadds, hadd, List.map_cons, hsame, List.append_assoc]
      rfl
    · rw [hadd] at hgrow'
      exact fun n a hn => hgrow' n a (hgrow n a hn)
    · rw [hadd] at hreg'
      exact fun h => hreg' (hreg h)
    · intro haliased n hn
      rcases List.mem_cons.mp hn with rfl | hn
      · obtain ⟨a, ha⟩ := hhas haliased
        rw [hadd] at hgrow'
        exact ⟨a, hgrow' n a ha⟩
      · exact hhas' haliased n hn

theorem Reaches.send {Q : Publisher → Prop} {kind : MessageKind} {topic : DeviceTopic}
    {named aliased : Bool} {metrics : List String} {rest : List Instr} {s : Publisher}
    (hs : OpenSession s.sent) (hconnected : s.connected = true)
    (htodo : s.todo = .start kind topic ::
      (metrics.map (.put named aliased) ++ .publishMqtt :: rest))
    (h : ∀ aliases names counter,
      (∀ n a, s.nameToAlias.get? n = some a → aliases.get? n = some a) →
      (Registered s.nameToAlias s.counter → Registered aliases counter) →
      (aliased = true → ∀ n ∈ metrics, ∃ a, aliases.get? n = some a) →
      Reaches cfg Q { s with
        seq := s.seq + 1
        nameToAlias := aliases
        aliasToName := names
        counter := counter
        payload := ⟨kind, topic, s.seq, metrics.map (told named aliased aliases)⟩
        sent := s.sent ++ [⟨kind, topic, s.seq, metrics.map (told named aliased aliases)⟩]
        todo := rest }) : Reaches cfg Q s := by
  have hstart : s.advance cfg true = { s with
      seq := s.seq + 1
      payload := ⟨kind, topic, s.seq, []⟩
      todo := metrics.map (.put named aliased) ++ .publishMqtt :: rest } := by
    unfold advance
    rw [htodo]
    rfl
  refine .next hs ?_
  rw [hstart]
  refine .puts hs rfl ?_
  obtain ⟨aliases, names, counter, heq, hgrow, hreg, hhas⟩ := addMetrics_eq named aliased metrics
    { s with seq := s.seq + 1, payload := ⟨kind, topic, s.seq, []⟩, todo := .publishMqtt :: rest }
  rw [heq]
  refine .next hs ?_
  have hpublish := h aliases names counter hgrow hreg hhas
  unfold advance execute
  dsimp only
  rw [if_pos ⟨hconnected, rfl⟩]
  exact hpublish

end Publisher

/-! ## Births and data -/

/-- What is published under a key of `bornDevices`: the metrics of a device, by alias or by name. -/
structure DeviceBirth where
  topic : DeviceTopic
  metrics : List String
  aliased : Bool
  deriving DecidableEq

namespace DeviceBirth

def data (b : DeviceBirth) : List Instr :=
  .start .ddata b.topic :: (b.metrics.map (.put (!b.aliased) b.aliased) ++ [.publishMqtt])

def process (b : DeviceBirth) (key : String) : List Instr :=
  .skipIfBorn key (b.metrics.length + 3) :: .start .dbirth b.topic ::
    (b.metrics.map (.put true b.aliased) ++ .publishMqtt :: .addBorn key :: b.data)

structure Is (b : DeviceBirth) (aliases : Dict String ℕ) (m : SparkplugMessage) : Prop where
  kind : m.kind = .dbirth
  topic : m.topic = b.topic
  metrics : m.metrics = b.metrics.map (Publisher.told true b.aliased aliases)
  known : b.aliased = true → ∀ n ∈ b.metrics, ∃ a, aliases.get? n = some a

end DeviceBirth

def deviceBirth (cfg : SparkplugConfig) : ConsumerRecord → Option (String × DeviceBirth)
  | .alarm alarmId sourceName =>
      if alarmId = "" then none
      else (AlarmMetricPublisher.alarmDevice alarmId sourceName).map fun deviceId =>
        (deviceId, ⟨{ AlarmMetricPublisher.nodeTopic cfg with device := deviceId },
          AlarmMetricPublisher.alarmMetrics, true⟩)
  | .metric group edge device metric =>
      if device = "" ∨ metric = "" then none
      else
        let group := group.getD cfg.sparkplugGroup
        let edge := edge.getD cfg.sparkplugEdge
        some (group ++ "/" ++ edge ++ "/" ++ device, ⟨⟨group, edge, device⟩, [metric], false⟩)
  | .loop loopId metric =>
      if loopId = "" ∨ metric = "" then none
      else
        let device := AlarmMetricPublisher.sanitized loopId
        some (cfg.sparkplugGroup ++ "/" ++ cfg.sparkplugEdge ++ "/" ++ device,
          ⟨{ AlarmMetricPublisher.nodeTopic cfg with device := device }, [metric], false⟩)
  | .unprocessable => none

theorem process_eq (cfg : SparkplugConfig) (r : ConsumerRecord) :
    AlarmMetricPublisher.process cfg r =
      match deviceBirth cfg r with
      | none => []
      | some (key, b) => b.process key := by
  cases r with
  | alarm alarmId sourceName =>
    unfold AlarmMetricPublisher.process AlarmMetricPublisher.processRecord deviceBirth
    dsimp only
    split
    · rfl
    · cases AlarmMetricPublisher.alarmDevice alarmId sourceName with
      | none => rfl
      | some deviceId => rfl
  | metric group edge device metric =>
    unfold AlarmMetricPublisher.process AlarmMetricPublisher.processMetricRecord deviceBirth
    dsimp only
    split <;> rfl
  | loop loopId metric =>
    unfold AlarmMetricPublisher.process AlarmMetricPublisher.processLoopMetricRecord deviceBirth
    dsimp only
    split <;> rfl
  | unprocessable => rfl

section Live

variable {births : String → DeviceBirth}

/-- A session after the birth of the node: the births that were published, and the registry that
agrees with them. -/
structure Live (births : String → DeviceBirth) (sent : List SparkplugMessage)
    (aliases : Dict String ℕ) (counter : ℕ) (bornDevices : List String) : Prop where
  openSession : OpenSession sent
  node : ∃ b rest, sent = b :: rest ∧ b.kind = .nbirth ∧ ∀ m ∈ rest, m.kind ≠ .nbirth
  declared : Declared sent aliases
  registered : Registered aliases counter
  born : ∀ k ∈ bornDevices, ∃ b ∈ sent, (births k).Is aliases b

variable {sent : List SparkplugMessage} {aliases aliases' : Dict String ℕ} {counter counter' : ℕ}
  {bornDevices : List String}

theorem told_grow {named aliased : Bool} {metrics : List String}
    (hknown : aliased = true → ∀ n ∈ metrics, ∃ a, aliases.get? n = some a)
    (hgrow : ∀ n a, aliases.get? n = some a → aliases'.get? n = some a) :
    metrics.map (Publisher.told named aliased aliases') =
      metrics.map (Publisher.told named aliased aliases) := by
  refine List.map_congr_left fun n hn => ?_
  unfold Publisher.told
  cases aliased with
  | false => rfl
  | true =>
    obtain ⟨a, ha⟩ := hknown rfl n hn
    rw [ha, hgrow n a ha]

theorem DeviceBirth.Is.grow {b : DeviceBirth} {m : SparkplugMessage} (h : b.Is aliases m)
    (hgrow : ∀ n a, aliases.get? n = some a → aliases'.get? n = some a) : b.Is aliases' m where
  kind := h.kind
  topic := h.topic
  metrics := h.metrics.trans (told_grow h.known hgrow).symm
  known ha n hn := (h.known ha n hn).imp fun a => hgrow n a

theorem Live.grow (h : Live births sent aliases counter bornDevices)
    (hgrow : ∀ n a, aliases.get? n = some a → aliases'.get? n = some a)
    (hreg : Registered aliases counter → Registered aliases' counter') :
    Live births sent aliases' counter' bornDevices where
  openSession := h.openSession
  node := h.node
  declared b hb hkind d hd := hgrow _ _ (h.declared b hb hkind d hd)
  registered := hreg h.registered
  born k hk := (h.born k hk).imp fun _ hb => ⟨hb.1, hb.2.grow hgrow⟩

theorem Live.ne_nil (h : Live births sent aliases counter bornDevices) : sent ≠ [] := by
  obtain ⟨b, rest, rfl, -⟩ := h.node
  exact List.cons_ne_nil b rest

theorem Live.concat (h : Live births sent aliases counter bornDevices) {m : SparkplugMessage}
    (hkind : m.kind ≠ .nbirth) (hopen : OpenSession (sent ++ [m]))
    (hdeclared : m.kind = .dbirth → ∀ d ∈ m.declarations, aliases.get? d.2 = some d.1) :
    Live births (sent ++ [m]) aliases counter bornDevices where
  openSession := hopen
  node := by
    obtain ⟨b, rest, rfl, hb, hrest⟩ := h.node
    refine ⟨b, rest ++ [m], rfl, hb, List.forall_mem_append.mpr ⟨hrest, fun m' hm' => ?_⟩⟩
    rwa [List.mem_singleton.mp hm']
  declared b hb hbirth := by
    rcases List.mem_append.mp hb with hb | hb
    · exact h.declared b hb hbirth
    · obtain rfl := List.mem_singleton.mp hb
      exact hdeclared hbirth
  registered := h.registered
  born k hk := (h.born k hk).imp fun _ hb => ⟨List.mem_append_left _ hb.1, hb.2⟩

theorem Live.birth (h : Live births sent aliases counter bornDevices) {b : DeviceBirth}
    {m : SparkplugMessage} (hm : b.Is aliases m) (hseq : m.seq = sent.length) :
    Live births (sent ++ [m]) aliases counter bornDevices := by
  refine h.concat (hm.kind ▸ nofun) ?_ fun _ d hd => ?_
  · refine h.openSession.concat (fun hnil => absurd hnil h.ne_nil) (fun hdata => ?_) hseq
    rw [hm.kind] at hdata
    cases hdata
  · obtain ⟨x, hx, hd⟩ := List.mem_filterMap.mp hd
    rw [hm.metrics] at hx
    obtain ⟨n, -, rfl⟩ := List.mem_map.mp hx
    obtain ⟨a, ha, rfl⟩ := Option.map_eq_some_iff.mp hd
    have ha' : (if b.aliased then aliases.get? n else none) = some a := ha
    split at ha'
    · exact ha'
    · cases ha'

theorem Live.addBorn (h : Live births sent aliases counter bornDevices) {k : String}
    {b : SparkplugMessage} (hb : b ∈ sent) (his : (births k).Is aliases b) :
    Live births sent aliases counter (k :: bornDevices) where
  openSession := h.openSession
  node := h.node
  declared := h.declared
  registered := h.registered
  born k' hk' := by
    rcases List.mem_cons.mp hk' with rfl | hk'
    · exact ⟨b, hb, his⟩
    · exact h.born k' hk'

theorem Live.denotes (h : Live births sent aliases counter bornDevices) {b : SparkplugMessage}
    (hb : b ∈ sent) (hbirth : b.kind = .dbirth) {a : ℕ} {n : String}
    (hd : (a, n) ∈ b.declarations) : (receiver sent).get? a = some n := by
  obtain ⟨nb, rest, rfl, hnb, hrest⟩ := h.node
  have hstart : receive .empty nb = .empty := by
    unfold receive
    rw [hnb]
  unfold receiver
  rw [List.foldl_cons, hstart]
  refine (receive_births h.registered hrest
    (fun b hb => h.declared b (List.mem_cons_of_mem _ hb)) fun a n hn => ?_).2 a n
      (.inr ⟨b, ?_, hbirth, hd⟩)
  · cases hn
  · rcases List.mem_cons.mp hb with rfl | hb
    · rw [hbirth] at hnb
      cases hnb
    · exact hb

theorem declares_told {b : SparkplugMessage} {aliased : Bool} {n : String}
    (hn : Publisher.told true aliased aliases n ∈ b.metrics)
    (hknown : aliased = true → ∃ a, aliases.get? n = some a) :
    b.Declares (Publisher.told (!aliased) aliased aliases n) := by
  cases aliased with
  | false => exact ⟨_, hn, rfl⟩
  | true =>
    obtain ⟨a, ha⟩ := hknown rfl
    have htold : Publisher.told (!true) true aliases n = ⟨"", some a, n⟩ :=
      congrArg (SentMetric.mk "" · n) ha
    rw [htold]
    exact ⟨_, hn, ha⟩

theorem Live.data (h : Live births sent aliases counter bornDevices) {k : String}
    (hk : k ∈ bornDevices) {m : SparkplugMessage} (hkind : m.kind = .ddata)
    (htopic : m.topic = (births k).topic)
    (hmetrics : m.metrics = (births k).metrics.map
      (Publisher.told (!(births k).aliased) (births k).aliased aliases))
    (hseq : m.seq = sent.length) :
    Live births (sent ++ [m]) aliases counter bornDevices := by
  obtain ⟨b, hb, his⟩ := h.born k hk
  have hanswered : Answered sent m := by
    refine ⟨⟨b, hb, his.kind, his.topic.trans htopic.symm, fun x hx => ?_⟩, fun x hx a ha => ?_⟩
    · rw [hmetrics] at hx
      obtain ⟨n, hn, rfl⟩ := List.mem_map.mp hx
      refine declares_told ?_ fun haliased => his.known haliased n hn
      rw [his.metrics]
      exact List.mem_map_of_mem hn
    · rw [hmetrics] at hx
      obtain ⟨n, hn, rfl⟩ := List.mem_map.mp hx
      unfold Publisher.told at ha ⊢
      dsimp only at ha ⊢
      cases haliased : (births k).aliased with
      | false =>
        rw [haliased] at ha
        cases ha
      | true =>
        rw [haliased, if_pos rfl] at ha
        refine h.denotes hb his.kind (List.mem_filterMap.mpr ⟨⟨n, some a, n⟩, ?_, rfl⟩)
        rw [his.metrics, haliased]
        refine List.mem_map.mpr ⟨n, hn, ?_⟩
        unfold Publisher.told
        rw [if_pos rfl, if_pos rfl, Option.mem_def.mp ha]
  refine h.concat (hkind ▸ nofun) ?_ fun hbirth => ?_
  · exact h.openSession.concat (fun hnil => absurd hnil h.ne_nil) (fun _ => hanswered) hseq
  · rw [hkind] at hbirth
    cases hbirth

end Live

/-! ## The main loop in a session -/

namespace Publisher

variable {cfg : SparkplugConfig} {births : String → DeviceBirth}

def Conforms (cfg : SparkplugConfig) (births : String → DeviceBirth) (r : ConsumerRecord) : Prop :=
  ∀ keyBirth ∈ deviceBirth cfg r, births keyBirth.1 = keyBirth.2

instance (r : ConsumerRecord) : Decidable (Conforms cfg births r) :=
  inferInstanceAs (Decidable (∀ keyBirth ∈ deviceBirth cfg r, births keyBirth.1 = keyBirth.2))

/-- The session is new: the callback is through, and the node's birth is needed. -/
structure Fresh (s : Publisher) : Prop where
  connected : s.connected = true
  callback : s.callback = []
  sent : s.sent = []
  seq : s.seq = 0
  bornDevices : s.bornDevices = []
  nameToAlias : s.nameToAlias = .empty
  counter : s.counter = 0
  needsNBirth : s.needsNBirth = true
  batch : s.batch = []

structure Between (cfg : SparkplugConfig) (births : String → DeviceBirth) (s : Publisher) : Prop where
  connected : s.connected = true
  callback : s.callback = []
  needsNBirth : s.needsNBirth = false
  live : Live births s.sent s.nameToAlias s.counter s.bornDevices
  seq : s.seq = s.sent.length
  batch : ∀ r ∈ s.batch, Conforms cfg births r

def AtRest (cfg : SparkplugConfig) (births : String → DeviceBirth) (s : Publisher) : Prop :=
  s.todo = [] ∧ (s.Fresh ∨ s.Between cfg births)

theorem AtRest.openSession {s : Publisher} (h : s.AtRest cfg births) : OpenSession s.sent := by
  rcases h.2 with hfresh | hbetween
  · rw [hfresh.sent]
    exact openSession_nil
  · exact hbetween.live.openSession

theorem Reaches.openSession {s : Publisher} (h : Reaches cfg (AtRest cfg births) s) :
    OpenSession s.sent := by
  cases h with
  | here h => exact h.openSession
  | next hs h => exact hs

theorem Reaches.of_idle {Q : Publisher → Prop} {s : Publisher} (h : Reaches cfg Q s)
    (htodo : s.todo = []) (hbatch : s.batch = []) : Q s := by
  induction h with
  | here h => exact h
  | next hs h ih =>
    rename_i s
    have hadvance : s.advance cfg true = s := by
      unfold advance
      rw [htodo]
      dsimp only
      rw [hbatch]
    rw [hadvance] at ih
    exact ih htodo hbatch

theorem reaches_data {s : Publisher} (h : s.Between cfg births) {key : String}
    (hkey : key ∈ s.bornDevices) (htodo : s.todo = (births key).data) :
    Reaches cfg (AtRest cfg births) s := by
  refine .send h.live.openSession h.connected htodo fun aliases names counter hgrow hreg hknown => ?_
  refine .here ⟨rfl, .inr ⟨h.connected, h.callback, h.needsNBirth, ?_, ?_, h.batch⟩⟩
  · exact (h.live.grow hgrow hreg).data hkey rfl rfl rfl h.seq
  · rw [List.length_append, ← h.seq]
    rfl

theorem reaches_process {s : Publisher} (h : s.Between cfg births) {key : String}
    (htodo : s.todo = (births key).process key) : Reaches cfg (AtRest cfg births) s := by
  refine .next h.live.openSession ?_
  by_cases hkey : key ∈ s.bornDevices
  · -- the birth is skipped
    have hadvance : s.advance cfg true = { s with todo := (births key).data } := by
      unfold advance
      rw [htodo]
      unfold DeviceBirth.process execute
      dsimp only
      rw [if_pos hkey]
      congr 1
      rw [List.drop_succ_cons, ← List.length_map (Instr.put true (births key).aliased),
        List.drop_length_add_append]
      rfl
    rw [hadvance]
    exact reaches_data ⟨h.connected, h.callback, h.needsNBirth, h.live, h.seq, h.batch⟩ hkey rfl
  · have hadvance : s.advance cfg true = { s with todo := ((births key).process key).tail } := by
      unfold advance
      rw [htodo]
      unfold DeviceBirth.process execute
      dsimp only
      rw [if_neg hkey]
      rfl
    rw [hadvance]
    refine .send h.live.openSession h.connected rfl
      fun aliases names counter hgrow hreg hknown => ?_
    have hbirth : (births key).Is aliases
        ⟨.dbirth, (births key).topic, s.seq, (births key).metrics.map
          (told true (births key).aliased aliases)⟩ := ⟨rfl, rfl, rfl, hknown⟩
    have hlive := (h.live.grow hgrow hreg).birth hbirth h.seq
    refine .next hlive.openSession ?_
    unfold advance execute
    dsimp only
    refine reaches_data ⟨h.connected, h.callback, h.needsNBirth, ?_, ?_, h.batch⟩
      List.mem_cons_self rfl
    · exact hlive.addBorn (List.mem_append_right _ List.mem_cons_self) hbirth
    · rw [List.length_append, ← h.seq]
      rfl

theorem reaches_record {s : Publisher} (h : s.Between cfg births) {r : ConsumerRecord}
    (hr : Conforms cfg births r) (htodo : s.todo = AlarmMetricPublisher.process cfg r) :
    Reaches cfg (AtRest cfg births) s := by
  rw [process_eq] at htodo
  cases hbirth : deviceBirth cfg r with
  | none =>
    rw [hbirth] at htodo
    exact .here ⟨htodo, .inr h⟩
  | some keyBirth =>
    obtain ⟨key, b⟩ := keyBirth
    have hb : births key = b := hr _ hbirth
    subst hb
    rw [hbirth] at htodo
    exact reaches_process h htodo

theorem reaches_polled {s : Publisher} (h : s.Between cfg births) {records : List ConsumerRecord}
    (hrecords : ∀ r ∈ records, Conforms cfg births r) (htodo : s.todo = [.pause, .poll records]) :
    Reaches cfg (AtRest cfg births) s := by
  refine .next h.live.openSession ?_
  have hpause : s.advance cfg true =
      { s with pausedForMqtt := false, todo := [.poll records] } := by
    unfold advance
    rw [htodo]
    unfold execute
    dsimp only
    rw [h.connected]
    rfl
  rw [hpause]
  refine .next h.live.openSession (.here ⟨rfl, .inr ?_⟩)
  exact ⟨h.connected, h.callback, h.needsNBirth, h.live, h.seq, hrecords⟩

theorem reaches_iterate {s : Publisher} (h : s.AtRest cfg births) {records : List ConsumerRecord}
    (hrecords : ∀ r ∈ records, Conforms cfg births r) :
    Reaches cfg (AtRest cfg births)
      { s with todo := [.nbirthIfNeeded, .pause, .poll records] } := by
  refine .next h.openSession ?_
  unfold advance execute
  dsimp only
  rcases h.2 with hfresh | hbetween
  · rw [if_pos hfresh.needsNBirth]
    have hbirth : AlarmMetricPublisher.publishNBirth cfg ++ [.pause, .poll records] =
        .start .nbirth (AlarmMetricPublisher.nodeTopic cfg) ::
          (["bdSeq"].map (.put true false) ++ .publishMqtt :: [.pause, .poll records]) := rfl
    refine .send h.openSession hfresh.connected hbirth
      fun aliases names counter hgrow hreg _ => ?_
    refine reaches_polled ⟨hfresh.connected, hfresh.callback, rfl, ?_, ?_, ?_⟩ hrecords rfl
    · dsimp only
      rw [hfresh.nameToAlias, hfresh.counter] at hreg
      rw [hfresh.sent, hfresh.seq, hfresh.bornDevices]
      refine ⟨?_, ⟨_, [], rfl, rfl, nofun⟩, fun b hb hkind => ?_, hreg registered_empty, nofun⟩
      · exact openSession_nil.concat (fun _ => rfl) nofun rfl
      · rw [List.mem_singleton.mp hb] at hkind
        cases hkind
    · dsimp only
      rw [hfresh.sent, hfresh.seq]
      rfl
    · dsimp only
      rw [hfresh.batch]
      exact nofun
  · rw [if_neg (by rw [hbetween.needsNBirth]; exact Bool.false_ne_true)]
    exact reaches_polled ⟨hbetween.connected, hbetween.callback, hbetween.needsNBirth,
      hbetween.live, hbetween.seq, hbetween.batch⟩ hrecords rfl

/-! ## Every interleaving -/

def publishes : List Instr → Bool
  | .publishMqtt :: _ => true
  | _ => false

/-- When an event is in order.  A session starts when the main loop is between two rounds; until its
callback is through the main loop waits; a publish of a session that goes on succeeds, and has a
sequence number below 256; and the records conform to the births. -/
def InOrder (cfg : SparkplugConfig) (births : String → DeviceBirth) (s : Publisher) : Event → Prop
  | .connect => s.connected = true ∨ s.todo.isEmpty = true ∧ s.batch.isEmpty = true
  | .iterate records =>
      (s.connected = true → s.callback.isEmpty = true) ∧ ∀ r ∈ records, Conforms cfg births r
  | .main succeeds =>
      s.connected = true → s.callback.isEmpty = true ∧
        (publishes s.todo = true → succeeds = true ∧ s.payload.seq < 256)
  | .callback | .disconnect => True

instance (s : Publisher) : ∀ e, Decidable (s.InOrder cfg births e)
  | .connect => inferInstanceAs
      (Decidable (s.connected = true ∨ s.todo.isEmpty = true ∧ s.batch.isEmpty = true))
  | .iterate records => inferInstanceAs (Decidable
      ((s.connected = true → s.callback.isEmpty = true) ∧ ∀ r ∈ records, Conforms cfg births r))
  | .main succeeds => inferInstanceAs (Decidable
      (s.connected = true → s.callback.isEmpty = true ∧
        (publishes s.todo = true → succeeds = true ∧ s.payload.seq < 256)))
  | .callback | .disconnect => isTrue trivial

def settled (s : Publisher) : Publisher := s.callback.foldl runCallback { s with callback := [] }

theorem settled_of_nil {s : Publisher} (h : s.callback = []) : s.settled = s := by
  unfold settled
  rw [h, List.foldl_nil, ← h]

theorem runCallback_frame (s : Publisher) (i : CallbackInstr) :
    (s.runCallback i).connected = s.connected ∧ (s.runCallback i).sent = s.sent ∧
      (s.runCallback i).todo = s.todo ∧ (s.runCallback i).batch = s.batch ∧
      (s.runCallback i).callback = s.callback := by
  cases i <;> exact ⟨rfl, rfl, rfl, rfl, rfl⟩

theorem fresh_callbacks {s : Publisher} {l : List CallbackInstr}
    (hconnected : s.connected = true) (hsent : s.sent = []) (hbatch : s.batch = [])
    (hcallback : s.callback = []) :
    ((l ++ connectComplete).foldl runCallback s).todo = s.todo ∧
      ((l ++ connectComplete).foldl runCallback s).Fresh := by
  induction l generalizing s with
  | nil => exact ⟨rfl, hconnected, hcallback, hsent, rfl, rfl, rfl, rfl, rfl, hbatch⟩
  | cons i l ih =>
    obtain ⟨h₁, h₂, h₃, h₄, h₅⟩ := runCallback_frame s i
    obtain ⟨htodo, hfresh⟩ := ih (h₁.trans hconnected) (h₂.trans hsent) (h₄.trans hbatch)
      (h₅.trans hcallback)
    exact ⟨htodo.trans h₃, hfresh⟩

theorem advance_frame (cfg : SparkplugConfig) (succeeds : Bool) (s : Publisher) :
    (s.advance cfg succeeds).connected = s.connected ∧
      (s.advance cfg succeeds).callback = s.callback := by
  unfold advance
  split
  · rename_i i rest hi
    cases i with
    | nbirthIfNeeded =>
      unfold execute
      dsimp only
      split <;> exact ⟨rfl, rfl⟩
    | skipIfBorn key birth =>
      unfold execute
      dsimp only
      split <;> exact ⟨rfl, rfl⟩
    | put named aliased metric =>
      unfold execute addMetric aliasFor
      dsimp only
      split
      · cases s.nameToAlias.get? metric <;> exact ⟨rfl, rfl⟩
      · exact ⟨rfl, rfl⟩
    | publishMqtt =>
      unfold execute publishFailed
      dsimp only
      split
      · exact ⟨rfl, rfl⟩
      · split <;> exact ⟨rfl, rfl⟩
    | pause => exact ⟨rfl, rfl⟩
    | poll records => exact ⟨rfl, rfl⟩
    | start kind topic => exact ⟨rfl, rfl⟩
    | addBorn key => exact ⟨rfl, rfl⟩
  · split <;> exact ⟨rfl, rfl⟩

theorem advance_sent (cfg : SparkplugConfig) (succeeds : Bool) (s : Publisher) :
    (s.advance cfg succeeds).sent = s.sent ∨
      (s.advance cfg succeeds).sent = s.sent ++ [s.payload] ∧ s.connected = true ∧
        ∃ rest, s.todo = .publishMqtt :: rest := by
  unfold advance
  split
  · rename_i i rest hi
    cases i with
    | nbirthIfNeeded =>
      unfold execute
      dsimp only
      split <;> exact .inl rfl
    | skipIfBorn key birth =>
      unfold execute
      dsimp only
      split <;> exact .inl rfl
    | put named aliased metric => exact .inl (addMetric_sent named aliased metric _)
    | publishMqtt =>
      unfold execute publishFailed
      dsimp only
      split
      · rename_i hok
        exact .inr ⟨rfl, hok.1, rest, hi⟩
      · left
        split <;> rfl
    | pause => exact .inl rfl
    | poll records => exact .inl rfl
    | start kind topic => exact .inl rfl
    | addBorn key => exact .inl rfl
  · left
    split <;> rfl

theorem advance_of_succeeds {s : Publisher} {succeeds : Bool}
    (h : ∀ rest, s.todo = .publishMqtt :: rest → succeeds = true) :
    s.advance cfg succeeds = s.advance cfg true := by
  unfold advance
  split
  · rename_i i rest hi
    cases i with
    | publishMqtt => rw [h rest hi]
    | nbirthIfNeeded => rfl
    | skipIfBorn key birth => rfl
    | put named aliased metric => rfl
    | pause => rfl
    | poll records => rfl
    | start kind topic => rfl
    | addBorn key => rfl
  · rfl

/-- The session is in order so far, and the main loop keeps it so once the callback is through. -/
structure Kept (cfg : SparkplugConfig) (births : String → DeviceBirth) (s : Publisher) : Prop where
  openSession : OpenSession s.sent
  range : ∀ m ∈ s.sent, m.seq < 256
  goesOn : s.connected = true → Reaches cfg (AtRest cfg births) s.settled
  waits : s.connected = true → s.callback ≠ [] → s.todo = [] ∧ s.batch = []

theorem kept_initial : initial.Kept cfg births where
  openSession := openSession_nil
  range := nofun
  goesOn h := absurd h Bool.false_ne_true
  waits h := absurd h Bool.false_ne_true

theorem kept_connect {s : Publisher} (h : s.Kept cfg births)
    (horder : s.InOrder cfg births .connect) : (step cfg s .connect).1.Kept cfg births := by
  unfold step
  dsimp only
  split
  · exact h
  · rename_i hdown
    obtain ⟨htodo, hbatch⟩ := horder.resolve_left hdown
    rw [List.isEmpty_iff] at htodo hbatch
    obtain ⟨hrest, hfresh⟩ := fresh_callbacks (l := s.callback)
      (s := { s with connected := true, sent := [], callback := [] }) rfl rfl hbatch rfl
    exact ⟨openSession_nil, nofun, fun _ => .here ⟨hrest.trans htodo, .inl hfresh⟩,
      fun _ _ => ⟨htodo, hbatch⟩⟩

theorem kept_callback {s : Publisher} (h : s.Kept cfg births) :
    (step cfg s .callback).1.Kept cfg births := by
  unfold step
  dsimp only
  split
  · rename_i i rest hcallback
    obtain ⟨hconnected, hsent, htodo, hbatch, hrest⟩ :=
      runCallback_frame { s with callback := rest } i
    have hsettled : ({ s with callback := rest }.runCallback i).settled = s.settled := by
      unfold settled
      rw [hrest, hcallback]
      cases i <;> rfl
    refine ⟨hsent.symm ▸ h.openSession, hsent.symm ▸ h.range, fun hup => ?_, fun hup _ => ?_⟩
    · rw [hsettled]
      exact h.goesOn (hconnected.symm.trans hup)
    · obtain ⟨ht, hb⟩ := h.waits (hconnected.symm.trans hup)
        (by rw [hcallback]; exact List.cons_ne_nil i rest)
      exact ⟨htodo.trans ht, hbatch.trans hb⟩
  · exact h

theorem kept_iterate {s : Publisher} (h : s.Kept cfg births) {records : List ConsumerRecord}
    (horder : s.InOrder cfg births (.iterate records)) :
    (step cfg s (.iterate records)).1.Kept cfg births := by
  unfold step
  dsimp only
  split
  · rename_i htodo hbatch
    have hnone : s.connected = true → s.callback = [] := fun hup =>
      List.isEmpty_iff.mp (horder.1 hup)
    refine ⟨h.openSession, h.range, fun hup => ?_, fun hup hne => absurd (hnone hup) hne⟩
    have hgoes := h.goesOn hup
    have hround : ({ s with todo := [.nbirthIfNeeded, .pause, .poll records] } : Publisher).callback =
        [] := hnone hup
    rw [settled_of_nil (hnone hup)] at hgoes
    rw [settled_of_nil hround]
    exact reaches_iterate (hgoes.of_idle htodo hbatch) horder.2
  · exact h

theorem kept_main {s : Publisher} (h : s.Kept cfg births) {succeeds : Bool}
    (horder : s.InOrder cfg births (.main succeeds)) :
    (step cfg s (.main succeeds)).1.Kept cfg births := by
  obtain ⟨hconnected, hcallback⟩ := advance_frame cfg succeeds s
  cases hup : s.connected with
  | false =>
    have hsent : (s.advance cfg succeeds).sent = s.sent := by
      rcases advance_sent cfg succeeds s with hsent | ⟨-, hc, -⟩
      · exact hsent
      · rw [hup] at hc
        cases hc
    have hdown : ¬ (s.advance cfg succeeds).connected = true := by
      rw [hconnected, hup]
      exact Bool.false_ne_true
    exact ⟨hsent.symm ▸ h.openSession, hsent.symm ▸ h.range, fun hc => absurd hc hdown,
      fun hc => absurd hc hdown⟩
  | true =>
    obtain ⟨hnone, hpublish⟩ := horder hup
    rw [List.isEmpty_iff] at hnone
    have hsucceeds : ∀ rest, s.todo = .publishMqtt :: rest →
        succeeds = true ∧ s.payload.seq < 256 := by
      intro rest htodo
      rw [htodo] at hpublish
      exact hpublish rfl
    have hgoes : Reaches cfg (AtRest cfg births) (s.advance cfg succeeds) := by
      rw [advance_of_succeeds fun rest htodo => (hsucceeds rest htodo).1]
      have hs := h.goesOn hup
      rw [settled_of_nil hnone] at hs
      cases hs with
      | next _ hs => exact hs
      | here hs =>
        unfold advance
        rw [hs.1]
        dsimp only
        split
        · rename_i r rest hbatch
          rcases hs.2 with hfresh | hbetween
          · rw [hfresh.batch] at hbatch
            cases hbatch
          · have hall := hbetween.batch
            rw [hbatch] at hall
            exact reaches_record ⟨hbetween.connected, hbetween.callback, hbetween.needsNBirth,
              hbetween.live, hbetween.seq, fun r' hr' => hall r' (List.mem_cons_of_mem _ hr')⟩
              (hall r List.mem_cons_self) rfl
        · exact .here hs
    refine ⟨hgoes.openSession, fun m hm => ?_, fun _ => ?_, fun _ hne => ?_⟩
    · rcases advance_sent cfg succeeds s with hsent | ⟨hsent, -, rest, htodo⟩
      · exact h.range m (hsent ▸ hm)
      · have hm' : m ∈ s.sent ++ [s.payload] := hsent ▸ hm
        rcases List.mem_append.mp hm' with hm' | hm'
        · exact h.range m hm'
        · rw [List.mem_singleton.mp hm']
          exact (hsucceeds rest htodo).2
    · have hnone' : (s.advance cfg succeeds).callback = [] := hcallback.trans hnone
      exact (settled_of_nil hnone').symm ▸ hgoes
    · exact absurd (hcallback.trans hnone) hne

theorem kept_step {s : Publisher} {e : Event} (h : s.Kept cfg births)
    (horder : s.InOrder cfg births e) : (step cfg s e).1.Kept cfg births := by
  cases e with
  | connect => exact kept_connect h horder
  | callback => exact kept_callback h
  | disconnect =>
    exact ⟨h.openSession, h.range, fun hup => absurd hup Bool.false_ne_true,
      fun hup => absurd hup Bool.false_ne_true⟩
  | iterate records => exact kept_iterate h horder
  | main succeeds => exact kept_main h horder

/-- In every run of events in order the messages of the session form a valid session. -/
theorem valid_of_inOrder {es : List Event}
    (h : Machine.Always (step cfg) (InOrder cfg births) initial es) :
    ValidSession (Machine.stateAfter (step cfg) initial es).sent :=
  have hkept := Machine.stateAfter_of_always (step cfg) (Kept cfg births)
    (fun _ _ => kept_step) kept_initial h
  hkept.openSession.valid hkept.range

/-! ## Runs -/

def siteEdge : SparkplugConfig := ⟨"ams_site1", "ams_edge1"⟩

def opening (records : List ConsumerRecord) : List Event :=
  .connect :: List.replicate 6 .callback ++ [.iterate records]

def goingOn (n : ℕ) : List Event := List.replicate n (.main true)

def twice : List Event :=
  opening [.loop "FIC101" "pv", .alarm "7c0d" "TIC101", .alarm "7c0d" "TIC101", .loop "FIC101" "pv"] ++
    goingOn 60

def twiceBirths (key : String) : DeviceBirth :=
  if key = "TIC101" then
    ⟨⟨"ams_site1", "ams_edge1", "TIC101"⟩, AlarmMetricPublisher.alarmMetrics, true⟩
  else ⟨⟨"ams_site1", "ams_edge1", "FIC101"⟩, ["pv"], false⟩

theorem twice_valid : ValidSession (Machine.stateAfter (step siteEdge) initial twice).sent :=
  valid_of_inOrder (show Machine.Always (step siteEdge) (InOrder siteEdge twiceBirths) initial twice
    by decide)

def failedBirth : List Event :=
  opening [.loop "FIC101" "pv"] ++ goingOn 3 ++ .main false :: goingOn 12

def twoSignals : List Event :=
  opening [.loop "FIC101" "pv", .loop "FIC101" "sp"] ++ goingOn 20

def repeatedBirth : List Event :=
  opening [.loop "FIC101" "pv"] ++ goingOn 10 ++
    .main false :: .iterate [.loop "FIC101" "pv"] :: goingOn 12

theorem failedBirth_not_valid :
    ¬ ValidSession (Machine.stateAfter (step siteEdge) initial failedBirth).sent := by
  intro h
  have hfirst : (Machine.stateAfter (step siteEdge) initial failedBirth).sent.head?.map (·.kind) =
      some .dbirth := by decide
  obtain ⟨m, hm, hkind⟩ := Option.map_eq_some_iff.mp hfirst
  have := h.starts m hm
  rw [hkind] at this
  cases this

theorem twoSignals_not_valid :
    ¬ ValidSession (Machine.stateAfter (step siteEdge) initial twoSignals).sent := by
  intro h
  have hsplit : (Machine.stateAfter (step siteEdge) initial twoSignals).sent =
      (Machine.stateAfter (step siteEdge) initial twoSignals).sent.take 3 ++
        [⟨.ddata, ⟨"ams_site1", "ams_edge1", "FIC101"⟩, 3, [⟨"sp", none, "sp"⟩]⟩] := by
    decide
  have hnone : ¬ ∃ b ∈ (Machine.stateAfter (step siteEdge) initial twoSignals).sent.take 3,
      b.kind = .dbirth ∧ b.topic = ⟨"ams_site1", "ams_edge1", "FIC101"⟩ ∧
        ∀ x ∈ [(⟨"sp", none, "sp"⟩ : SentMetric)], b.Declares x := by decide
  exact hnone (h.answered _ _ _ hsplit rfl).born

theorem repeatedBirth_not_valid :
    ¬ ValidSession (Machine.stateAfter (step siteEdge) initial repeatedBirth).sent := by
  intro h
  have hseq : (Machine.stateAfter (step siteEdge) initial repeatedBirth).sent[1]?.map (·.seq) =
      some 2 := by decide
  obtain ⟨m, hm, hm2⟩ := Option.map_eq_some_iff.mp hseq
  have := h.consecutive 1 m hm
  rw [hm2] at this
  cases this

/-- A node's birth that fails is not sent again, a second signal of a loop is declared by no birth,
and a publish that fails leaves a gap in the sequence numbers. -/
theorem sessions_not_valid :
    ¬ ValidSession (Machine.stateAfter (step siteEdge) initial failedBirth).sent ∧
      ¬ ValidSession (Machine.stateAfter (step siteEdge) initial twoSignals).sent ∧
      ¬ ValidSession (Machine.stateAfter (step siteEdge) initial repeatedBirth).sent :=
  ⟨failedBirth_not_valid, twoSignals_not_valid, repeatedBirth_not_valid⟩

end Publisher

end OpenBridge.LivePlane
