import Mathlib

/-!
# Calculations: the expression evaluator

`ExpressionEvaluator`: an infix text is cut into tokens and evaluated with a stack of pending
operators.  The operations on doubles are a parameter.
-/

namespace OpenBridge.Calculations

inductive Operator
  | add | sub | mul | div | rem | pow
  deriving DecidableEq

def Operator.char : Operator → Char
  | .add => '+'
  | .sub => '-'
  | .mul => '*'
  | .div => '/'
  | .rem => '%'
  | .pow => '^'

/-- `java.lang.Character`, as far as the tokenizer asks it. -/
structure CharClass where
  isWhitespace : Char → Bool
  isDigit : Char → Bool
  isLetter : Char → Bool
  graphic : ∀ c : Char, 33 ≤ c.toNat → c.toNat ≤ 126 →
    isWhitespace c = false ∧ isDigit c = c.isDigit ∧ isLetter c = c.isAlpha
  letter : ∀ c : Char, isLetter c = true → isWhitespace c = false ∧ isDigit c = false

/-- The operations of a double: reading a literal, the sign, and the six binary operations. -/
structure Numbers (V : Type) where
  parseDouble : String → Option V
  neg : V → V
  apply : Operator → V → V → V

/-- A token, as the tests of `evaluate` tell them apart. -/
inductive Token
  | number (text : List Char)
  | name (text : List Char)
  | lparen
  | rparen
  | operator (o : Operator)
  | unexpected (text : List Char)
  deriving DecidableEq

/-- `IllegalArgumentException`, and its subclass that `parseDouble` throws. -/
inductive IllegalArgument
  | thrown (message : String)
  | numberFormat (text : List Char)

/-! ## Tokens -/

section Tokenizer

variable (C : CharClass)

/-- What continues a number after `prev`: a sign only after an exponent marker. -/
def numberChar (prev c : Char) : Bool :=
  C.isDigit c || c = '.' || c = 'e' || c = 'E' ||
    ((c = '+' || c = '-') && (prev = 'e' || prev = 'E'))

def nameChar (c : Char) : Bool := C.isLetter c || C.isDigit c || c = '_' || c = '.'

def takeNumber (prev : Char) : List Char → List Char × List Char
  | [] => ([], [])
  | c :: rest =>
    if numberChar C prev c then
      let r := takeNumber c rest
      (c :: r.1, r.2)
    else ([], c :: rest)

/-- The outcome of `Tokenizer.next`. -/
inductive Next
  | done
  | token (text rest : List Char)
  | bad (c : Char)

def next (s : List Char) : Next :=
  match s.dropWhile C.isWhitespace with
  | [] => .done
  | c :: rest =>
    if c = '(' ∨ c = ')' then .token [c] rest
    else if c ∈ ['+', '-', '*', '/', '%', '^'] then .token [c] rest
    else if C.isDigit c ∨ c = '.' then
      let r := takeNumber C c rest
      .token (c :: r.1) r.2
    else if C.isLetter c ∨ c = '_' then
      .token (c :: rest.takeWhile (nameChar C)) (rest.dropWhile (nameChar C))
    else .bad c

/-- `isOperator`, with the operator. -/
def operatorOf : List Char → Option Operator
  | ['+'] => some .add
  | ['-'] => some .sub
  | ['*'] => some .mul
  | ['/'] => some .div
  | ['%'] => some .rem
  | ['^'] => some .pow
  | _ => none

/-- The tests of `evaluate` on a token, in their order. -/
def classify : List Char → Token
  | [] => .unexpected []
  | c :: rest =>
    if c = '.' ∨ c.isDigit then .number (c :: rest)
    else if C.isLetter c ∨ c = '_' then .name (c :: rest)
    else if c :: rest = ['('] then .lparen
    else if c :: rest = [')'] then .rparen
    else
      match operatorOf (c :: rest) with
      | some o => .operator o
      | none => .unexpected (c :: rest)

theorem length_takeNumber (prev : Char) (s : List Char) :
    (takeNumber C prev s).2.length ≤ s.length := by
  induction s generalizing prev with
  | nil => exact Nat.le_refl 0
  | cons c rest ih =>
    unfold takeNumber
    split
    · exact Nat.le_succ_of_le (ih c)
    · exact Nat.le_refl _

theorem length_next {s t rest : List Char} (h : next C s = .token t rest) :
    rest.length < s.length := by
  have hdrop := (List.dropWhile_sublist C.isWhitespace (l := s)).length_le
  unfold next at h
  split at h
  · cases h
  · rename_i c tail hs
    rw [hs, List.length_cons] at hdrop
    have hname := (List.dropWhile_sublist (nameChar C) (l := tail)).length_le
    have hnumber := length_takeNumber C c tail
    split at h
    · cases h
      omega
    · split at h
      · cases h
        omega
      · split at h
        · cases h
          omega
        · split at h
          · cases h
            omega
          · cases h

def scan (s : List Char) : List Token × Option Char :=
  match h : next C s with
  | .done => ([], none)
  | .bad c => ([], some c)
  | .token t rest =>
    have := length_next C h
    let r := scan rest
    (classify C t :: r.1, r.2)
termination_by s.length

theorem scan_done {s : List Char} (h : next C s = .done) : scan C s = ([], none) := by
  rw [scan]
  split
  · rfl
  · rename_i hb
    rw [h] at hb
    cases hb
  · rename_i ht
    rw [h] at ht
    cases ht

theorem scan_token {s t r : List Char} (h : next C s = .token t r) :
    scan C s = (classify C t :: (scan C r).1, (scan C r).2) := by
  rw [scan]
  split
  · rename_i hd
    rw [h] at hd
    cases hd
  · rename_i hb
    rw [h] at hb
    cases hb
  · rename_i ht
    rw [h] at ht
    cases ht
    rfl

end Tokenizer

/-! ## Evaluation -/

/-- What waits on the operator stack: an open group, `u-`, or an operator. -/
inductive Pending
  | paren
  | unary
  | op (o : Operator)
  deriving DecidableEq

def prec : Pending → ℕ
  | .op .pow => 3
  | .unary => 2
  | .op .mul | .op .div | .op .rem => 2
  | .op .add | .op .sub => 1
  | .paren => 0

def leftAssoc (p : Pending) : Bool := p ≠ .op .pow && p ≠ .unary

def pops (op top : Pending) : Bool :=
  top ≠ .paren && (prec op < prec top || (prec top = prec op && leftAssoc op))

structure State (V : Type) where
  output : List V
  ops : List Pending
  prev : Option Token

def expects : Option Token → Bool
  | none => true
  | some (.operator _) => true
  | some .lparen => true
  | _ => false

def pendingOf (prev : Option Token) (o : Operator) : Pending :=
  if o = .sub && expects prev then .unary else .op o

section Evaluate

variable {V : Type} (N : Numbers V) (vars : String → Option V)

def applyOp : Pending → List V → Except IllegalArgument (List V)
  | .unary, v :: out => .ok (N.neg v :: out)
  | .op o, b :: a :: out => .ok (N.apply o a b :: out)
  | .paren, _ :: _ :: _ => .error (.thrown "Unknown operator: (")
  | _, _ => .error (.thrown "Malformed expression")

def popWhile (p : Pending → Bool) : List Pending → List V →
    Except IllegalArgument (List Pending × List V)
  | [], out => .ok ([], out)
  | o :: ops, out => if p o then applyOp N o out >>= popWhile p ops else .ok (o :: ops, out)

def step (st : State V) (tok : Token) : Except IllegalArgument (State V) :=
  match tok with
  | .number t =>
    match N.parseDouble (String.ofList t) with
    | none => .error (.numberFormat t)
    | some v => .ok ⟨v :: st.output, st.ops, some tok⟩
  | .name t =>
    match vars (String.ofList t) with
    | none => .error (.thrown ("Unknown variable: " ++ String.ofList t))
    | some v => .ok ⟨v :: st.output, st.ops, some tok⟩
  | .lparen => .ok ⟨st.output, .paren :: st.ops, some tok⟩
  | .rparen =>
    popWhile N (· ≠ .paren) st.ops st.output >>= fun r =>
      match r.1 with
      | [] => .error (.thrown "Mismatched parentheses")
      | _ :: ops => .ok ⟨r.2, ops, some tok⟩
  | .operator o =>
    popWhile N (pops (pendingOf st.prev o)) st.ops st.output >>= fun r =>
      .ok ⟨r.2, pendingOf st.prev o :: r.1, some tok⟩
  | .unexpected t => .error (.thrown ("Unexpected token: " ++ String.ofList t))

def drain : List Pending → List V → Except IllegalArgument (List V)
  | [], out => .ok out
  | o :: ops, out =>
    if o = .paren then .error (.thrown "Mismatched parentheses")
    else applyOp N o out >>= drain ops

def finish (st : State V) : Except IllegalArgument V :=
  drain N st.ops st.output >>= fun out =>
    match out with
    | [v] => .ok v
    | _ => .error (.thrown "Malformed expression")

def run (st : State V) (toks : List Token) : Except IllegalArgument (State V) :=
  toks.foldlM (step N vars) st

def evaluate (C : CharClass) (expr : List Char) : Except IllegalArgument V :=
  let r := scan C expr
  run N vars ⟨[], [], none⟩ r.1 >>= fun st =>
    match r.2 with
    | some c => .error (.thrown ("Unexpected character: " ++ String.singleton c))
    | none => finish N st

end Evaluate

/-! ## What the stack operations do -/

section Stack

variable {V : Type} {N : Numbers V} {vars : String → Option V}

def Pending.isBinary : Pending → Bool
  | .op _ => true
  | _ => false

theorem countP_binary_cons (o : Pending) (ops : List Pending) :
    (o :: ops).countP Pending.isBinary =
      [o].countP Pending.isBinary + ops.countP Pending.isBinary :=
  (List.countP_append : ([o] ++ ops).countP _ = _)

theorem applyOp_ok {o : Pending} {out out' : List V} (h : applyOp N o out = .ok out') :
    o ≠ .paren ∧ out.length = out'.length + [o].countP Pending.isBinary := by
  unfold applyOp at h
  split at h
  · cases h
    exact ⟨nofun, rfl⟩
  · cases h
    exact ⟨nofun, rfl⟩
  · cases h
  · cases h

theorem bind_ok {α β : Type} {x : Except IllegalArgument α} {f : α → Except IllegalArgument β}
    {b : β} (h : x >>= f = .ok b) : ∃ a, x = .ok a ∧ f a = .ok b := by
  cases x with
  | error e => cases h
  | ok a => exact ⟨a, rfl, h⟩

theorem popWhile_ok {p : Pending → Bool} {ops ops' : List Pending} {out out' : List V}
    (h : popWhile N p ops out = .ok (ops', out')) :
    (∃ popped, ops = popped ++ ops' ∧ Pending.paren ∉ popped ∧
      out.length = out'.length + popped.countP Pending.isBinary) ∧
      ∀ top ∈ ops'.head?, p top = false := by
  induction ops generalizing out with
  | nil =>
    cases h
    exact ⟨⟨[], rfl, List.not_mem_nil, rfl⟩, nofun⟩
  | cons o ops ih =>
    unfold popWhile at h
    split at h
    · obtain ⟨mid, hmid, hrest⟩ := bind_ok h
      obtain ⟨⟨popped, hops, hparen, hlength⟩, hhead⟩ := ih hrest
      obtain ⟨hne, hcount⟩ := applyOp_ok hmid
      refine ⟨⟨o :: popped, by rw [hops]; rfl, ?_, ?_⟩, hhead⟩
      · exact fun hmem => (List.mem_cons.mp hmem).elim (fun h => hne h.symm) hparen
      · have hcons := countP_binary_cons o popped
        omega
    · rename_i hp
      cases h
      refine ⟨⟨[], rfl, List.not_mem_nil, rfl⟩, fun top htop => ?_⟩
      cases htop
      simpa using hp

theorem drain_ok {ops : List Pending} {out out' : List V} (h : drain N ops out = .ok out') :
    Pending.paren ∉ ops ∧ out.length = out'.length + ops.countP Pending.isBinary := by
  induction ops generalizing out with
  | nil =>
    cases h
    exact ⟨List.not_mem_nil, rfl⟩
  | cons o ops ih =>
    unfold drain at h
    split at h
    · cases h
    · rename_i hne
      obtain ⟨mid, hmid, hrest⟩ := bind_ok h
      obtain ⟨hparen, hlength⟩ := ih hrest
      obtain ⟨-, hcount⟩ := applyOp_ok hmid
      constructor
      · exact fun hmem => (List.mem_cons.mp hmem).elim (fun h => hne h.symm) hparen
      · have hcons := countP_binary_cons o ops
        omega

theorem finish_ok {st : State V} {v : V} (h : finish N st = .ok v) :
    drain N st.ops st.output = .ok [v] := by
  obtain ⟨out, hdrain, hout⟩ := bind_ok h
  rw [hdrain]
  split at hout
  · cases hout
    rfl
  · cases hout

theorem run_cons (st : State V) (tok : Token) (toks : List Token) :
    run N vars st (tok :: toks) = step N vars st tok >>= fun st' => run N vars st' toks := rfl

theorem run_append (st : State V) (ts us : List Token) :
    run N vars st (ts ++ us) = run N vars st ts >>= fun st' => run N vars st' us :=
  List.foldlM_append

end Stack

/-! ## Texts that are no expression -/

/-- The grammar of infix texts: an operand, or operands with operators between them. -/
inductive Infix {V : Type} (N : Numbers V) : Bool → List Token → Prop
  | number {t : List Char} (h : N.parseDouble (String.ofList t) ≠ none) : Infix N true [.number t]
  | name (t : List Char) : Infix N true [.name t]
  | group {ts : List Token} (h : Infix N false ts) : Infix N true (.lparen :: ts ++ [.rparen])
  | minus {ts : List Token} (h : Infix N true ts) : Infix N true (.operator .sub :: ts)
  | operand {ts : List Token} (h : Infix N true ts) : Infix N false ts
  | binary {ts us : List Token} (h : Infix N false ts) (o : Operator) (h' : Infix N true us) :
      Infix N false (ts ++ .operator o :: us)

def IsExpression {V : Type} (N : Numbers V) (C : CharClass) (expr : List Char) : Prop :=
  (scan C expr).2 = none ∧ Infix N false (scan C expr).1

def Rejects {V : Type} (N : Numbers V) (vars : String → Option V) (C : CharClass)
    (expr : List Char) : Prop :=
  ¬ IsExpression N C expr → ∃ e, evaluate N vars C expr = .error e

def Token.startsOperand : Token → Bool
  | .number _ | .name _ | .lparen => true
  | _ => false

def Separated : Option Token → List Token → Prop
  | _, [] => True
  | prev, t :: rest =>
    (t.startsOperand = true → expects prev = true) ∧ (t = .rparen → prev ≠ some .lparen) ∧
      Separated (some t) rest

section Grammar

variable {V : Type} {N : Numbers V} {vars : String → Option V} {C : CharClass}

def Waiting (N : Numbers V) (ts : List Token) : Prop :=
  ∀ us, Infix N true us → Infix N false (ts ++ us)

theorem Infix.ends {b : Bool} {ts : List Token} (h : Infix N b ts) :
    ∃ front t, ts = front ++ [t] ∧ expects (some t) = false := by
  induction h with
  | number h => exact ⟨[], _, rfl, rfl⟩
  | name t => exact ⟨[], _, rfl, rfl⟩
  | group h ih => exact ⟨_, _, rfl, rfl⟩
  | minus h ih =>
    obtain ⟨front, t, rfl, ht⟩ := ih
    exact ⟨_ :: front, t, rfl, ht⟩
  | operand h ih => exact ih
  | @binary before us h o h' ih ih' =>
    obtain ⟨front, t, rfl, ht⟩ := ih'
    exact ⟨before ++ .operator o :: front, t, by rw [List.append_assoc, List.cons_append], ht⟩

theorem Waiting.nil : Waiting N [] := fun _ h => .operand h

theorem Waiting.minus {ts : List Token} (h : Waiting N ts) :
    Waiting N (ts ++ [.operator .sub]) := fun us hus => by
  rw [List.append_assoc]
  exact h _ (.minus hus)

theorem Infix.waiting {ts : List Token} (h : Infix N false ts) (o : Operator) :
    Waiting N (ts ++ [.operator o]) := fun us hus => by
  rw [List.append_assoc]
  exact .binary h o hus

def joined : List (List Token) → List Token → List Token
  | [], cur => cur
  | f :: frames, cur => joined frames (f ++ .lparen :: cur)

theorem joined_append (frames : List (List Token)) (cur ts : List Token) :
    joined frames cur ++ ts = joined frames (cur ++ ts) := by
  induction frames generalizing cur with
  | nil => rfl
  | cons f frames ih =>
    unfold joined
    rw [ih, List.append_assoc, List.cons_append]

def balance (st : State V) : ℤ := st.output.length - st.ops.countP Pending.isBinary

def Reading (N : Numbers V) (toks : List Token) (st : State V) : Prop :=
  ∃ frames cur, toks = joined frames cur ∧ (∀ f ∈ frames, Waiting N f) ∧
    st.ops.count .paren = frames.length ∧
      if expects st.prev then Waiting N cur ∧ balance st = 0 else Infix N false cur ∧ balance st = 1

def Spoiled (st : State V) : Prop := balance st ≤ if expects st.prev then -1 else 0

theorem balance_le {toks : List Token} {st : State V} (h : Reading N toks st ∨ Spoiled st) :
    balance st ≤ if expects st.prev then 0 else 1 := by
  rcases h with ⟨_, _, _, _, _, h⟩ | h
  · split at h
    · rename_i he
      rw [if_pos he]
      omega
    · rename_i he
      rw [if_neg he]
      omega
  · unfold Spoiled at h
    split at h
    · rename_i he
      rw [if_pos he]
      omega
    · rename_i he
      rw [if_neg he]
      omega

def Stepped (st st' : State V) : Token → Prop
  | .number _ | .name _ => ∃ v, st'.output = v :: st.output ∧ st'.ops = st.ops
  | .lparen => st'.output = st.output ∧ st'.ops = .paren :: st.ops
  | .rparen => ∃ popped, st.ops = popped ++ .paren :: st'.ops ∧ .paren ∉ popped ∧
      st.output.length = st'.output.length + popped.countP Pending.isBinary
  | .operator o => ∃ popped rest, st.ops = popped ++ rest ∧ .paren ∉ popped ∧
      st.output.length = st'.output.length + popped.countP Pending.isBinary ∧
      st'.ops = pendingOf st.prev o :: rest
  | .unexpected _ => False

theorem step_cases {st st' : State V} {tok : Token} (h : step N vars st tok = .ok st') :
    st'.prev = some tok ∧ Stepped st st' tok := by
  cases tok with
  | number t =>
    cases hparse : N.parseDouble (String.ofList t) with
    | none => simp only [step, hparse, reduceCtorEq] at h
    | some v =>
      simp only [step, hparse, Except.ok.injEq] at h
      subst h
      exact ⟨rfl, v, rfl, rfl⟩
  | name t =>
    cases hvar : vars (String.ofList t) with
    | none => simp only [step, hvar, reduceCtorEq] at h
    | some v =>
      simp only [step, hvar, Except.ok.injEq] at h
      subst h
      exact ⟨rfl, v, rfl, rfl⟩
  | lparen =>
    cases h
    exact ⟨rfl, rfl, rfl⟩
  | rparen =>
    obtain ⟨⟨ops', out'⟩, hpop, hrest⟩ := bind_ok h
    obtain ⟨⟨popped, hops, hparen, hlength⟩, hhead⟩ := popWhile_ok hpop
    cases ops' with
    | nil => cases hrest
    | cons top rest =>
      cases hrest
      obtain rfl : top = .paren := by simpa using hhead top rfl
      exact ⟨rfl, popped, hops, hparen, hlength⟩
  | operator o =>
    obtain ⟨⟨ops', out'⟩, hpop, hrest⟩ := bind_ok h
    obtain ⟨⟨popped, hops, hparen, hlength⟩, -⟩ := popWhile_ok hpop
    cases hrest
    exact ⟨rfl, popped, ops', hops, hparen, hlength, rfl⟩
  | unexpected t => cases h

theorem pendingOf_ne_paren (prev : Option Token) (o : Operator) : pendingOf prev o ≠ .paren := by
  unfold pendingOf
  split
  · exact nofun
  · exact nofun

def Token.weight (prev : Option Token) : Token → ℤ
  | .number _ | .name _ => 1
  | .operator o => if pendingOf prev o = .unary then 0 else -1
  | .lparen | .rparen | .unexpected _ => 0

theorem balance_step {st st' : State V} {tok : Token} (h : step N vars st tok = .ok st') :
    balance st' = balance st + tok.weight st.prev := by
  obtain ⟨-, h⟩ := step_cases h
  unfold balance
  cases tok with
  | number t | name t =>
    obtain ⟨v, hout, hops⟩ := h
    rw [hout, hops, List.length_cons, Token.weight]
    omega
  | lparen =>
    obtain ⟨hout, hops⟩ := h
    rw [hout, hops, Token.weight, countP_binary_cons, show [Pending.paren].countP Pending.isBinary = 0
      from rfl]
    omega
  | rparen =>
    obtain ⟨popped, hops, -, hlength⟩ := h
    have hskip := countP_binary_cons .paren st'.ops
    have hzero : [Pending.paren].countP Pending.isBinary = 0 := rfl
    rw [hops, hlength, List.countP_append, Token.weight]
    omega
  | operator o =>
    obtain ⟨popped, rest, hops, -, hlength, hops'⟩ := h
    have hone : [pendingOf st.prev o].countP Pending.isBinary =
        if pendingOf st.prev o = .unary then 0 else 1 := by
      unfold pendingOf
      split
      · rfl
      · rfl
    rw [hops', hops, hlength, List.countP_append, countP_binary_cons, hone, Token.weight]
    split
    · omega
    · omega
  | unexpected t => cases h

theorem reading_leaf {st st' : State V} {toks : List Token} {tok : Token}
    (hleaf : Infix N true [tok]) (hafter : ¬ expects st'.prev = true) (hops : st'.ops = st.ops)
    (hbalance : balance st' = balance st + 1) (hexpects : expects st.prev = true)
    (h : Reading N toks st ∨ Spoiled st) : Reading N (toks ++ [tok]) st' ∨ Spoiled st' := by
  rcases h with ⟨frames, cur, rfl, hframes, hparens, hcur⟩ | hspoiled
  · left
    rw [if_pos hexpects] at hcur
    refine ⟨frames, _, joined_append .., hframes, by rw [hops, hparens], ?_⟩
    rw [if_neg hafter]
    refine ⟨hcur.1 _ hleaf, ?_⟩
    rw [hbalance, hcur.2]
    rfl
  · right
    unfold Spoiled at hspoiled ⊢
    rw [if_pos hexpects] at hspoiled
    rw [hbalance, if_neg hafter]
    omega

theorem reading_step {st st' : State V} {toks : List Token} {tok : Token}
    (hstep : step N vars st tok = .ok st') (hoperand : tok.startsOperand = true → expects st.prev = true)
    (hclose : tok = .rparen → st.prev ≠ some .lparen) (h : Reading N toks st ∨ Spoiled st) :
    Reading N (toks ++ [tok]) st' ∨ Spoiled st' := by
  have hbalance := balance_step hstep
  obtain ⟨hprev, hcases⟩ := step_cases hstep
  have hle := balance_le h
  cases tok with
  | number t =>
    obtain ⟨v, -, hops⟩ := hcases
    have hparse : N.parseDouble (String.ofList t) ≠ none := fun hnone => by
      simp only [step, hnone, reduceCtorEq] at hstep
    exact reading_leaf (.number hparse) (by rw [hprev]; exact Bool.false_ne_true) hops hbalance
      (hoperand rfl) h
  | name t =>
    obtain ⟨v, -, hops⟩ := hcases
    exact reading_leaf (.name t) (by rw [hprev]; exact Bool.false_ne_true) hops hbalance
      (hoperand rfl) h
  | lparen =>
    have hafter : expects (some Token.lparen) = true := rfl
    have hexpects := hoperand rfl
    obtain ⟨-, hops⟩ := hcases
    rcases h with ⟨frames, cur, rfl, hframes, hparens, hcur⟩ | hspoiled
    · left
      rw [if_pos hexpects] at hcur
      refine ⟨cur :: frames, [], joined_append .., ?_, ?_, ?_⟩
      · exact List.forall_mem_cons.mpr ⟨hcur.1, hframes⟩
      · rw [hops, List.count_cons_self, hparens, List.length_cons]
      · rw [hprev, if_pos hafter]
        refine ⟨.nil, ?_⟩
        rw [hbalance, hcur.2]
        rfl
    · right
      unfold Spoiled at hspoiled ⊢
      rw [if_pos hexpects] at hspoiled
      rw [hprev, hbalance, if_pos hafter, Token.weight]
      omega
  | rparen =>
    have hafter : ¬ expects (some Token.rparen) = true := Bool.false_ne_true
    obtain ⟨popped, hops, hparen, -⟩ := hcases
    have hzero : balance st' = balance st := by
      rw [hbalance]
      exact Int.add_zero _
    by_cases hexpects : expects st.prev = true
    · right
      rw [if_pos hexpects] at hle
      unfold Spoiled
      rw [hprev, hzero, if_neg hafter]
      exact hle
    · rcases h with ⟨frames, cur, rfl, hframes, hparens, hcur⟩ | hspoiled
      · left
        rw [if_neg hexpects] at hcur
        rw [hops, List.count_append, List.count_eq_zero_of_not_mem hparen, List.count_cons_self]
          at hparens
        cases frames with
        | nil =>
          rw [List.length_nil] at hparens
          omega
        | cons f frames =>
          have hgroup := (List.forall_mem_cons.mp hframes).1 _ (.group hcur.1)
          refine ⟨frames, f ++ (.lparen :: cur ++ [.rparen]), ?_, ?_, ?_, ?_⟩
          · rw [joined, joined_append, List.append_assoc]
          · exact (List.forall_mem_cons.mp hframes).2
          · rw [List.length_cons] at hparens
            omega
          · rw [hprev, if_neg hafter]
            exact ⟨hgroup, hzero.trans hcur.2⟩
      · right
        unfold Spoiled at hspoiled ⊢
        rw [if_neg hexpects] at hspoiled
        rw [hprev, hzero, if_neg hafter]
        exact hspoiled
  | operator o =>
    obtain ⟨popped, rest, hops, hparen, -, hops'⟩ := hcases
    have hcount : st'.ops.count .paren = st.ops.count .paren := by
      rw [hops', hops, List.count_append, List.count_eq_zero_of_not_mem hparen,
        List.count_cons_of_ne (pendingOf_ne_paren _ _), Nat.zero_add]
    have hafter : expects (some (Token.operator o)) = true := rfl
    by_cases hunary : pendingOf st.prev o = .unary
    · have hminus : o = .sub ∧ expects st.prev = true := by
        unfold pendingOf at hunary
        split at hunary
        · rename_i hand
          simpa using hand
        · cases hunary
      obtain ⟨rfl, hexpects⟩ := hminus
      rw [Token.weight, if_pos hunary, Int.add_zero] at hbalance
      rcases h with ⟨frames, cur, rfl, hframes, hparens, hcur⟩ | hspoiled
      · left
        rw [if_pos hexpects] at hcur
        refine ⟨frames, _, joined_append .., hframes, hcount.trans hparens, ?_⟩
        rw [hprev, if_pos hafter]
        exact ⟨hcur.1.minus, hbalance.trans hcur.2⟩
      · right
        unfold Spoiled at hspoiled ⊢
        rw [if_pos hexpects] at hspoiled
        rw [hprev, if_pos hafter, hbalance]
        exact hspoiled
    · rw [Token.weight, if_neg hunary] at hbalance
      by_cases hexpects : expects st.prev = true
      · right
        rw [if_pos hexpects] at hle
        unfold Spoiled
        rw [hprev, if_pos hafter, hbalance]
        omega
      · rcases h with ⟨frames, cur, rfl, hframes, hparens, hcur⟩ | hspoiled
        · left
          rw [if_neg hexpects] at hcur
          refine ⟨frames, _, joined_append .., hframes, hcount.trans hparens, ?_⟩
          rw [hprev, if_pos hafter]
          refine ⟨hcur.1.waiting o, ?_⟩
          rw [hbalance, hcur.2]
          rfl
        · right
          unfold Spoiled at hspoiled ⊢
          rw [if_neg hexpects] at hspoiled
          rw [hprev, if_pos hafter, hbalance]
          omega
  | unexpected t => cases hcases

theorem reading_run {st st' : State V} {toks rest : List Token}
    (hrun : run N vars st rest = .ok st') (hsep : Separated st.prev rest)
    (h : Reading N toks st ∨ Spoiled st) : Reading N (toks ++ rest) st' ∨ Spoiled st' := by
  induction rest generalizing st toks with
  | nil =>
    cases hrun
    rwa [List.append_nil]
  | cons tok rest ih =>
    obtain ⟨mid, hmid, hrest⟩ := bind_ok hrun
    obtain ⟨hoperand, hclose, hsep⟩ := hsep
    have hnext := reading_step hmid hoperand hclose h
    rw [← (step_cases hmid).1] at hsep
    have := ih hrest hsep hnext
    rwa [List.append_assoc] at this

theorem infix_of_ok {ts : List Token} {st : State V} {v : V}
    (hrun : run N vars ⟨[], [], none⟩ ts = .ok st) (hfinish : finish N st = .ok v)
    (hsep : Separated none ts) : Infix N false ts := by
  obtain ⟨hparen, hlength⟩ := drain_ok (finish_ok hfinish)
  have hone : balance st = 1 := by
    unfold balance
    rw [hlength, List.length_singleton]
    omega
  have hstart : Reading N [] ⟨[], [], none⟩ := ⟨[], [], rfl, nofun, rfl, .nil, rfl⟩
  rcases reading_run hrun hsep (Or.inl hstart) with ⟨frames, cur, hts, -, hparens, hcur⟩ | hspoiled
  · rw [List.count_eq_zero_of_not_mem hparen] at hparens
    obtain rfl : frames = [] := List.length_eq_zero_iff.mp hparens.symm
    rw [List.nil_append] at hts
    split at hcur
    · rw [hone] at hcur
      exact absurd hcur.2 (by decide)
    · rw [hts]
      exact hcur.1
  · unfold Spoiled at hspoiled
    rw [hone] at hspoiled
    split at hspoiled
    · exact absurd hspoiled (by decide)
    · exact absurd hspoiled (by decide)

end Grammar

/-! ## The runtime of a test -/

/-- `java.lang.Character` on ASCII. -/
def ascii : CharClass where
  isWhitespace c := c.isWhitespace
  isDigit c := c.isDigit
  isLetter c := c.isAlpha
  graphic c hlow _ := by
    refine ⟨?_, rfl, rfl⟩
    by_contra hspace
    simp only [Char.isWhitespace, Bool.not_eq_false, Bool.or_eq_true, decide_eq_true_eq] at hspace
    rcases hspace with ((rfl | rfl) | rfl) | rfl <;> exact absurd hlow (by decide)
  letter c h := by
    constructor
    · by_contra hspace
      simp only [Char.isWhitespace, Bool.not_eq_false, Bool.or_eq_true, decide_eq_true_eq] at hspace
      rcases hspace with ((rfl | rfl) | rfl) | rfl <;> exact absurd h (by decide)
    · by_contra hdigit
      simp only [Char.isAlpha, Char.isUpper, Char.isLower, Char.isDigit, Bool.not_eq_false,
        Bool.or_eq_true, Bool.and_eq_true, decide_eq_true_eq, UInt32.le_iff_toNat_le] at h hdigit
      have hA : (65 : UInt32).toNat = 65 := rfl
      simp at h hdigit
      omega

def whole : Numbers ℤ where
  parseDouble s :=
    if s.toList.all Char.isDigit ∧ s ≠ "" then
      some (s.toList.foldl (fun n c => 10 * n + (c.toNat - 48)) 0)
    else none
  neg := Int.neg
  apply
    | .add => fun a b => a + b
    | .sub => fun a b => a - b
    | .mul => fun a b => a * b
    | .div => fun a b => a / b
    | .rem => fun a b => a % b
    | .pow => fun a b => a ^ b.toNat

end OpenBridge.Calculations
