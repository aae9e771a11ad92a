import OpenBridge.Calculations.ExpressionEvaluator

/-!
# Calculations: printed expressions

An expression tree printed to infix, with any redundant groups, is evaluated to its value unless an
exponent is printed as a bare negation: `u-` binds looser than `^`, so the sign takes a `^` off the
stack before its exponent is read.
-/

namespace OpenBridge.Calculations

/-! ## Printed tokens -/

def Token.text : Token → List Char
  | .number t | .name t | .unexpected t => t
  | .lparen => ['(']
  | .rparen => [')']
  | .operator o => [o.char]

def text (ts : List Token) : List Char := ts.flatMap Token.text

/-- A literal that the tokenizer takes whole and that does not end in an exponent marker. -/
structure Numeral (C : CharClass) where
  first : Char
  rest : List Char
  starts : first = '.' ∨ first.isDigit = true
  whole : takeNumber C first rest = (rest, [])
  ends : rest.getLastD first ≠ 'e' ∧ rest.getLastD first ≠ 'E'

def Numeral.text {C : CharClass} (n : Numeral C) : List Char := n.first :: n.rest

structure Name (C : CharClass) where
  first : Char
  rest : List Char
  starts : C.isLetter first = true ∨ first = '_'
  whole : ∀ c ∈ rest, nameChar C c = true

def Name.text {C : CharClass} (x : Name C) : List Char := x.first :: x.rest

def Token.Lexical (C : CharClass) : Token → Prop
  | .number t => ∃ n : Numeral C, n.text = t
  | .name t => ∃ x : Name C, x.text = t
  | .unexpected _ => False
  | .lparen | .rparen | .operator _ => True

section Lexing

variable {C : CharClass}

def special : List Char := ['(', ')', '+', '-', '*', '/', '%', '^']

theorem special_class {d : Char} (h : d ∈ special) : C.isWhitespace d = false ∧
    C.isDigit d = false ∧ C.isLetter d = false ∧ d ≠ '.' ∧ d ≠ '_' ∧ d.isDigit = false ∧
      d ≠ 'e' ∧ d ≠ 'E' := by
  have hplain : ∀ d ∈ special, (33 ≤ d.toNat ∧ d.toNat ≤ 126) ∧ d.isDigit = false ∧
      d.isAlpha = false ∧ d ≠ '.' ∧ d ≠ '_' ∧ d ≠ 'e' ∧ d ≠ 'E' := by
    intro d hd
    simp only [special, List.mem_cons, List.not_mem_nil, or_false] at hd
    rcases hd with rfl | rfl | rfl | rfl | rfl | rfl | rfl | rfl <;>
      exact ⟨⟨by decide, by decide⟩, rfl, rfl, by decide, by decide, by decide, by decide⟩
  obtain ⟨⟨hlow, hhigh⟩, hdigit, halpha, hpoint, hbar, he, hE⟩ := hplain d h
  obtain ⟨hspace, hisDigit, hisLetter⟩ := C.graphic d hlow hhigh
  exact ⟨hspace, hisDigit.trans hdigit, hisLetter.trans halpha, hpoint, hbar, hdigit, he, hE⟩

theorem operator_mem_special (o : Operator) : o.char ∈ special := by
  cases o <;> decide

theorem takeNumber_append {prev : Char} {rest tail : List Char}
    (h : takeNumber C prev rest = (rest, []))
    (hends : rest.getLastD prev ≠ 'e' ∧ rest.getLastD prev ≠ 'E')
    (htail : ∀ d ∈ tail.head?, d ∈ special) :
    takeNumber C prev (rest ++ tail) = (rest, tail) := by
  induction rest generalizing prev with
  | nil =>
    cases tail with
    | nil => rfl
    | cons d tail =>
      obtain ⟨-, hdigit, -, hpoint, -, -, he, hE⟩ := special_class (C := C) (htail d rfl)
      have hstop : numberChar C prev d = false := by
        have hprev : prev ≠ 'e' ∧ prev ≠ 'E' := hends
        simp [numberChar, hdigit, hpoint, he, hE, hprev.1, hprev.2]
      rw [List.nil_append, takeNumber, if_neg (by rw [hstop]; exact Bool.false_ne_true)]
  | cons c rest ih =>
    rw [takeNumber] at h
    split at h
    · rename_i hc
      simp only [Prod.mk.injEq, List.cons.injEq, true_and] at h
      rw [List.cons_append, takeNumber, if_pos hc,
        ih (Prod.ext h.1 h.2) (by rwa [List.getLastD_cons] at hends)]
    · simp at h

theorem nameChar_special {d : Char} (h : d ∈ special) : nameChar C d = false := by
  obtain ⟨-, hdigit, hletter, hpoint, hbar, -⟩ := special_class (C := C) h
  simp [nameChar, hdigit, hletter, hpoint, hbar]

theorem digit_class {c : Char} (h : c.isDigit = true) :
    C.isWhitespace c = false ∧ C.isDigit c = true := by
  have hrange : 48 ≤ c.toNat ∧ c.toNat ≤ 57 := by
    unfold Char.isDigit at h
    rw [Bool.and_eq_true, decide_eq_true_eq, decide_eq_true_eq] at h
    exact ⟨UInt32.le_iff_toNat_le.mp h.1, UInt32.le_iff_toNat_le.mp h.2⟩
  obtain ⟨hspace, hdigit, -⟩ := C.graphic c (by omega) (by omega)
  exact ⟨hspace, hdigit.trans h⟩

theorem word_start {c : Char} (h : c = '.' ∨ c.isDigit = true ∨ C.isLetter c = true ∨ c = '_') :
    c ∉ special ∧ C.isWhitespace c = false := by
  constructor
  · intro hmem
    obtain ⟨-, -, hletter, hpoint, hbar, hdigit, -⟩ := special_class (C := C) hmem
    rcases h with h | h | h | h
    · exact hpoint h
    · rw [hdigit] at h
      cases h
    · rw [hletter] at h
      cases h
    · exact hbar h
  · rcases h with rfl | h | h | rfl
    · exact (C.graphic '.' (by decide) (by decide)).1
    · exact (digit_class h).1
    · exact (C.letter c h).1
    · exact (C.graphic '_' (by decide) (by decide)).1

theorem next_word {c : Char} (rest : List Char)
    (h : c = '.' ∨ c.isDigit = true ∨ C.isLetter c = true ∨ c = '_') :
    next C (c :: rest) = if C.isDigit c ∨ c = '.' then
        .token (c :: (takeNumber C c rest).1) (takeNumber C c rest).2
      else if C.isLetter c ∨ c = '_' then
        .token (c :: rest.takeWhile (nameChar C)) (rest.dropWhile (nameChar C))
      else .bad c := by
  obtain ⟨hspecial, hspace⟩ := word_start h
  simp only [special, List.mem_cons, List.not_mem_nil, or_false, not_or] at hspecial
  obtain ⟨hopen, hclose, hoperators⟩ := hspecial
  unfold next
  rw [List.dropWhile_cons_of_neg (by rw [hspace]; exact Bool.false_ne_true)]
  dsimp only
  rw [if_neg (by simp [hopen, hclose]), if_neg (by simpa using hoperators)]

theorem next_special {d : Char} (h : d ∈ special) (rest : List Char) :
    next C (d :: rest) = .token [d] rest := by
  have hspace := (special_class (C := C) h).1
  unfold next
  rw [List.dropWhile_cons_of_neg (by rw [hspace]; exact Bool.false_ne_true)]
  dsimp only
  split
  · rfl
  · rename_i hgroup
    rw [if_pos]
    simp only [special, List.mem_cons, List.not_mem_nil, or_false] at h
    simp only [List.mem_cons, List.not_mem_nil, or_false]
    tauto

theorem next_text {tok : Token} {tail : List Char} (hlex : tok.Lexical C)
    (htail : ∀ t, tok = .number t ∨ tok = .name t → ∀ d ∈ tail.head?, d ∈ special) :
    next C (tok.text ++ tail) = .token tok.text tail ∧ classify C tok.text = tok := by
  cases tok with
  | number t =>
    obtain ⟨n, rfl⟩ := hlex
    have hdigit : C.isDigit n.first = true ∨ n.first = '.' := by
      rcases n.starts with h | h
      · exact Or.inr h
      · exact Or.inl (digit_class h).2
    constructor
    · rw [Token.text, Numeral.text, List.cons_append,
        next_word _ (n.starts.elim Or.inl fun h => Or.inr (Or.inl h)), if_pos hdigit,
        takeNumber_append n.whole n.ends (htail _ (Or.inl rfl))]
    · rw [Token.text, Numeral.text, classify, if_pos n.starts]
  | name t =>
    obtain ⟨x, rfl⟩ := hlex
    have hfirst : C.isDigit x.first = false ∧ x.first ≠ '.' ∧ x.first.isDigit = false := by
      rcases x.starts with h | h
      · obtain ⟨hspace, hdigit⟩ := C.letter _ h
        refine ⟨hdigit, fun hpoint => ?_, ?_⟩
        · rw [hpoint, (C.graphic '.' (by decide) (by decide)).2.2] at h
          exact absurd h (by decide)
        · by_contra hne
          rw [(digit_class (C := C) (by simpa using hne)).2] at hdigit
          cases hdigit
      · rw [h, (C.graphic '_' (by decide) (by decide)).2.1]
        decide
    constructor
    · have htake : (x.rest ++ tail).takeWhile (nameChar C) = x.rest ∧
          (x.rest ++ tail).dropWhile (nameChar C) = tail := by
        have hall : tail.takeWhile (nameChar C) = [] ∧ tail.dropWhile (nameChar C) = tail := by
          cases tail with
          | nil => exact ⟨rfl, rfl⟩
          | cons d tail =>
            have hd := nameChar_special (C := C) (htail _ (Or.inr rfl) d rfl)
            constructor
            · rw [List.takeWhile_cons_of_neg (by rw [hd]; exact Bool.false_ne_true)]
            · rw [List.dropWhile_cons_of_neg (by rw [hd]; exact Bool.false_ne_true)]
        constructor
        · rw [List.takeWhile_append_of_pos x.whole, hall.1, List.append_nil]
        · rw [List.dropWhile_append_of_pos x.whole, hall.2]
      rw [Token.text, Name.text, List.cons_append,
        next_word _ (x.starts.elim (fun h => Or.inr (Or.inr (Or.inl h)))
          fun h => Or.inr (Or.inr (Or.inr h))), if_neg (by simp [hfirst.1, hfirst.2.1]),
        if_pos x.starts, htake.1, htake.2]
    · rw [Token.text, Name.text, classify, if_neg (by simp [hfirst.2.1, hfirst.2.2]),
        if_pos x.starts]
  | lparen =>
    refine ⟨next_special (by decide) _, ?_⟩
    rw [Token.text, classify, if_neg (by decide),
      if_neg (by rw [(C.graphic '(' (by decide) (by decide)).2.2]; decide), if_pos rfl]
  | rparen =>
    refine ⟨next_special (by decide) _, ?_⟩
    rw [Token.text, classify, if_neg (by decide),
      if_neg (by rw [(C.graphic ')' (by decide) (by decide)).2.2]; decide), if_neg (by decide),
      if_pos rfl]
  | operator o =>
    refine ⟨next_special (operator_mem_special o) _, ?_⟩
    obtain ⟨-, -, hletter, hpoint, hbar, hdigit, -⟩ :=
      special_class (C := C) (operator_mem_special o)
    rw [Token.text, classify, if_neg (by simp [hpoint, hdigit]), if_neg (by simp [hletter, hbar])]
    cases o <;> rfl
  | unexpected t => exact absurd hlex id

theorem scan_text {ts : List Token} {prev : Option Token} (hlex : ∀ t ∈ ts, t.Lexical C)
    (hsep : Separated prev ts) : scan C (text ts) = (ts, none) := by
  induction ts generalizing prev with
  | nil => exact scan_done C rfl
  | cons t rest ih =>
    obtain ⟨-, -, hrest⟩ := hsep
    obtain ⟨hhead, hothers⟩ := List.forall_mem_cons.mp hlex
    have htail : ∀ w, t = .number w ∨ t = .name w → ∀ d ∈ (text rest).head?, d ∈ special := by
      intro w hw d hd
      cases rest with
      | nil => cases hd
      | cons u rest =>
        have hstart := hrest.1
        have hu := hothers u List.mem_cons_self
        have hafter : ¬ expects (some t) = true := by
          rcases hw with rfl | rfl
          · exact Bool.false_ne_true
          · exact Bool.false_ne_true
        cases u with
        | number v | name v | lparen => exact absurd (hstart rfl) hafter
        | rparen =>
          cases hd
          decide
        | operator o =>
          cases hd
          exact operator_mem_special o
        | unexpected v => exact absurd hu id
    obtain ⟨hnext, hclass⟩ := next_text hhead htail
    have hsplit : text (t :: rest) = t.text ++ text rest := List.flatMap_cons
    rw [hsplit, scan_token C hnext, hclass, ih hothers hrest]

end Lexing

/-! ## Trees -/

inductive Expr (C : CharClass)
  | num (n : Numeral C)
  | var (x : Name C)
  | neg (e : Expr C)
  | bin (o : Operator) (a b : Expr C)

def value {C : CharClass} {V : Type} (N : Numbers V) (vars : String → Option V) :
    Expr C → Option V
  | .num n => N.parseDouble (String.ofList n.text)
  | .var x => vars (String.ofList x.text)
  | .neg e => (value N vars e).map N.neg
  | .bin o a b => do N.apply o (← value N vars a) (← value N vars b)

/-- A tree printed to infix at a level: a sum (1), a product (2), a signed operand (3), a power (4) or
an operand (5).  Any expression may be put in a group. -/
inductive Printed {C : CharClass} : ℕ → Expr C → List Token → Prop
  | num (n : Numeral C) : Printed 5 (.num n) [.number n.text]
  | var (x : Name C) : Printed 5 (.var x) [.name x.text]
  | group {e : Expr C} {ts : List Token} (h : Printed 1 e ts) :
      Printed 5 e (.lparen :: ts ++ [.rparen])
  | power {a b : Expr C} {ts us : List Token} (h : Printed 5 a ts) (h' : Printed 4 b us) :
      Printed 4 (.bin .pow a b) (ts ++ .operator .pow :: us)
  | powerNeg {a b : Expr C} {ts us : List Token} (h : Printed 5 a ts) (h' : Printed 3 b us) :
      Printed 4 (.bin .pow a (.neg b)) (ts ++ .operator .pow :: .operator .sub :: us)
  | neg {e : Expr C} {ts : List Token} (h : Printed 3 e ts) : Printed 3 (.neg e) (.operator .sub :: ts)
  | left {o : Operator} {a b : Expr C} {ts us : List Token} (ho : o ≠ .pow)
      (h : Printed (prec (.op o)) a ts) (h' : Printed (prec (.op o) + 1) b us) :
      Printed (prec (.op o)) (.bin o a b) (ts ++ .operator o :: us)
  | loosen {n : ℕ} {e : Expr C} {ts : List Token} (h : Printed (n + 1) e ts) : Printed n e ts

/-- No sign directly after a `^`. -/
def NoPowMinus (ts : List Token) : Prop :=
  ts.IsChain fun a b => ¬ (a = .operator .pow ∧ b = .operator .sub)

section Printed

variable {C : CharClass} {V : Type} {N : Numbers V} {vars : String → Option V} {n : ℕ}
  {e : Expr C} {ts : List Token}

theorem Printed.lexical (h : Printed n e ts) : ∀ t ∈ ts, t.Lexical C := by
  induction h with
  | num n => exact List.forall_mem_singleton.mpr ⟨n, rfl⟩
  | var x => exact List.forall_mem_singleton.mpr ⟨x, rfl⟩
  | group h ih =>
    intro t ht
    simp only [List.cons_append, List.mem_cons, List.mem_append, List.not_mem_nil, or_false] at ht
    rcases ht with rfl | ht | rfl
    · exact trivial
    · exact ih t ht
    · exact trivial
  | power h h' ih ih' =>
    exact List.forall_mem_append.mpr ⟨ih, List.forall_mem_cons.mpr ⟨trivial, ih'⟩⟩
  | powerNeg h h' ih ih' =>
    exact List.forall_mem_append.mpr ⟨ih, List.forall_mem_cons.mpr ⟨trivial,
      List.forall_mem_cons.mpr ⟨trivial, ih'⟩⟩⟩
  | neg h ih => exact List.forall_mem_cons.mpr ⟨trivial, ih⟩
  | left ho h h' ih ih' =>
    exact List.forall_mem_append.mpr ⟨ih, List.forall_mem_cons.mpr ⟨trivial, ih'⟩⟩
  | loosen h ih => exact ih

def lastToken (prev : Option Token) (ts : List Token) : Option Token :=
  ts.foldl (fun _ t => some t) prev

theorem separated_append {prev : Option Token} {us : List Token} :
    Separated prev (ts ++ us) ↔ Separated prev ts ∧ Separated (lastToken prev ts) us := by
  induction ts generalizing prev with
  | nil => exact (and_iff_right trivial).symm
  | cons t ts ih =>
    rw [List.cons_append, Separated, Separated, ih, and_assoc, and_assoc]
    rfl

theorem Printed.separated (h : Printed n e ts) {q : Option Token} (hprev : expects q = true) :
    Separated q ts ∧ expects (lastToken q ts) = false := by
  induction h generalizing q with
  | num n => exact ⟨⟨fun _ => hprev, nofun, trivial⟩, rfl⟩
  | var x => exact ⟨⟨fun _ => hprev, nofun, trivial⟩, rfl⟩
  | @group e ts h ih =>
    obtain ⟨hsep, hlast⟩ := ih (q := some .lparen) rfl
    have hclose : lastToken (some .lparen) ts ≠ some .lparen := fun heq => by
      rw [heq] at hlast
      cases hlast
    constructor
    · exact ⟨fun _ => hprev, nofun, separated_append.mpr ⟨hsep, nofun, fun _ => hclose, trivial⟩⟩
    · unfold lastToken
      rw [List.foldl_append]
      rfl
  | power h h' ih ih' =>
    obtain ⟨hsep, -⟩ := ih hprev
    obtain ⟨hsep', hlast'⟩ := ih' (q := some (.operator .pow)) rfl
    refine ⟨separated_append.mpr ⟨hsep, nofun, nofun, hsep'⟩, ?_⟩
    unfold lastToken at hlast' ⊢
    rwa [List.foldl_append]
  | powerNeg h h' ih ih' =>
    obtain ⟨hsep, -⟩ := ih hprev
    obtain ⟨hsep', hlast'⟩ := ih' (q := some (.operator .sub)) rfl
    refine ⟨separated_append.mpr ⟨hsep, nofun, nofun, nofun, nofun, hsep'⟩, ?_⟩
    unfold lastToken at hlast' ⊢
    rwa [List.foldl_append]
  | neg h ih =>
    obtain ⟨hsep, hlast⟩ := ih (q := some (.operator .sub)) rfl
    exact ⟨⟨nofun, nofun, hsep⟩, hlast⟩
  | @left o _ _ _ _ ho h h' ih ih' =>
    obtain ⟨hsep, -⟩ := ih hprev
    obtain ⟨hsep', hlast'⟩ := ih' (q := some (.operator o)) rfl
    refine ⟨separated_append.mpr ⟨hsep, nofun, nofun, hsep'⟩, ?_⟩
    unfold lastToken at hlast' ⊢
    rwa [List.foldl_append]
  | loosen h ih => exact ih hprev

/-! ## The stack while a tree is read -/

/-- The level of an expression whose operator is `p`. -/
def tight : Pending → ℕ
  | .op .pow => 4
  | .unary => 3
  | p => prec p

theorem tight_eq (p : Pending) : tight p = if leftAssoc p then prec p else prec p + 1 := by
  rcases p with _ | _ | o
  · rfl
  · rfl
  · cases o <;> rfl

theorem pops_iff {op top : Pending} : pops op top = true ↔ top ≠ .paren ∧ tight op ≤ prec top := by
  unfold pops
  rw [Bool.and_eq_true, decide_eq_true_eq, tight_eq]
  refine and_congr_right fun _ => ?_
  generalize prec top = k
  cases leftAssoc op with
  | true =>
    rw [if_pos rfl, Bool.and_true, Bool.or_eq_true, decide_eq_true_eq, decide_eq_true_eq]
    omega
  | false =>
    rw [if_neg Bool.false_ne_true, Bool.and_false, Bool.or_false, decide_eq_true_eq]
    exact Nat.lt_iff_add_one_le

/-- The top of the stack is left alone by an operator of the level. -/
def Fits (n : ℕ) (ops : List Pending) : Prop := ∀ top ∈ ops.head?, prec top < n

def applyAll (N : Numbers V) (pend : List Pending) (out : List V) :
    Except IllegalArgument (List V) :=
  pend.foldlM (fun out o => applyOp N o out) out

theorem popWhile_append {p : Pending → Bool} {pend ops : List Pending} {out out' : List V}
    (hpend : ∀ o ∈ pend, p o = true) (hops : ∀ top ∈ ops.head?, p top = false)
    (h : applyAll N pend out = .ok out') : popWhile N p (pend ++ ops) out = .ok (ops, out') := by
  induction pend generalizing out with
  | nil =>
    cases h
    cases ops with
    | nil => rfl
    | cons top ops =>
      rw [List.nil_append, popWhile, if_neg (by rw [hops top rfl]; exact Bool.false_ne_true)]
  | cons o pend ih =>
    obtain ⟨mid, hmid, hrest⟩ := bind_ok h
    change applyOp N o out = .ok mid at hmid
    rw [List.cons_append]
    unfold popWhile
    rw [if_pos (hpend o List.mem_cons_self), hmid]
    exact ih (fun x hx => hpend x (List.mem_cons_of_mem _ hx)) hrest

/-- What is left of a tree on the stacks: operators that give its value when they are applied. -/
structure Read (N : Numbers V) (n : ℕ) (v : V) (st st' : State V) (pend : List Pending) : Prop where
  ops : st'.ops = pend ++ st.ops
  value : applyAll N pend st'.output = .ok (v :: st.output)
  strong : ∀ o ∈ pend, o ≠ .paren ∧ min n 2 ≤ prec o
  atom : 5 ≤ n → pend = []
  after : expects st'.prev = false

theorem pendingOf_after {prev : Option Token} (h : expects prev = false) (o : Operator) :
    pendingOf prev o = .op o := by
  unfold pendingOf
  rw [if_neg (by simp [h])]

theorem Read.operator {v : V} {st st' : State V} {pend : List Pending} {o : Operator}
    (h : Read N n v st st' pend) (htight : ∀ p ∈ pend, tight (.op o) ≤ prec p)
    (hfits : Fits (tight (.op o)) st.ops) :
    step N vars st' (.operator o) = .ok ⟨v :: st.output, .op o :: st.ops, some (.operator o)⟩ := by
  have hstop : ∀ top ∈ st.ops.head?, pops (.op o) top = false := fun top htop => by
    have hlt := hfits top htop
    by_contra hne
    have hle := (pops_iff.mp (by simpa using hne)).2
    omega
  unfold step
  dsimp only
  rw [pendingOf_after h.after, h.ops, popWhile_append
    (fun p hp => pops_iff.mpr ⟨(h.strong p hp).1, htight p hp⟩) hstop h.value]
  rfl

theorem level_of_left {o : Operator} (ho : o ≠ .pow) :
    tight (.op o) = prec (.op o) ∧ prec (.op o) ≤ 2 := by
  cases o with
  | pow => exact absurd rfl ho
  | add | sub | mul | div | rem => exact ⟨rfl, by decide⟩

theorem Read.operator_left {v : V} {st st' : State V} {pend : List Pending} {o : Operator}
    (ho : o ≠ .pow) (h : Read N (prec (.op o)) v st st' pend) (hfits : Fits (prec (.op o)) st.ops) :
    step N vars st' (.operator o) = .ok ⟨v :: st.output, .op o :: st.ops, some (.operator o)⟩ := by
  obtain ⟨htight, hlevel⟩ := level_of_left ho
  refine h.operator (fun p hp => ?_) (htight ▸ hfits)
  have := (h.strong p hp).2
  omega

theorem step_sign {st : State V} (hprev : expects st.prev = true) (hfits : Fits 3 st.ops) :
    step N vars st (.operator .sub) =
      .ok ⟨st.output, .unary :: st.ops, some (.operator .sub)⟩ := by
  have hstop : ∀ top ∈ st.ops.head?, pops .unary top = false := fun top htop => by
    have hlt := hfits top htop
    by_contra hne
    have hle := (pops_iff.mp (by simpa using hne)).2
    exact absurd (Nat.lt_of_le_of_lt hle hlt) (Nat.lt_irrefl 3)
  have hunary : pendingOf st.prev .sub = .unary := by
    unfold pendingOf
    rw [if_pos (by simp [hprev])]
  have hpop : popWhile N (pops .unary) ([] ++ st.ops) st.output = _ :=
    popWhile_append nofun hstop rfl
  rw [List.nil_append] at hpop
  unfold step
  dsimp only
  rw [hunary, hpop]
  rfl

theorem applyAll_append (pend : List Pending) (o : Pending) (out : List V) :
    applyAll N (pend ++ [o]) out = applyAll N pend out >>= fun out => applyOp N o out := by
  unfold applyAll
  rw [List.foldlM_append]
  congr 1
  funext out
  exact bind_pure _

theorem run_of_step {st mid : State V} {tok : Token} (rest : List Token)
    (h : step N vars st tok = .ok mid) : run N vars st (tok :: rest) = run N vars mid rest := by
  rw [run_cons, h]
  rfl

theorem run_of_run {st mid : State V} (rest : List Token) (h : run N vars st ts = .ok mid) :
    run N vars st (ts ++ rest) = run N vars mid rest := by
  rw [run_append, h]
  rfl

theorem Fits.loosen {ops : List Pending} {m : ℕ} (h : Fits n ops) (hm : n ≤ m) : Fits m ops :=
  fun top htop => (h top htop).trans_le hm

theorem Read.push {v w : V} {st mid st' : State V} {pend : List Pending} {m : ℕ} {p : Pending}
    (h : Read N m v mid st' pend) (hops : mid.ops = p :: st.ops)
    (happly : applyOp N p (v :: mid.output) = .ok (w :: st.output))
    (hp : p ≠ .paren) (hprec : min n 2 ≤ prec p) (hm : n ≤ m) (hn : n < 5) :
    Read N n w st st' (pend ++ [p]) where
  ops := by rw [h.ops, hops, List.append_assoc, List.singleton_append]
  value := by
    rw [applyAll_append, h.value]
    exact happly
  strong := List.forall_mem_append.mpr ⟨fun o ho => ⟨(h.strong o ho).1, by
    have := (h.strong o ho).2
    omega⟩, List.forall_mem_singleton.mpr ⟨hp, hprec⟩⟩
  atom := fun hle => absurd hle (Nat.not_le.mpr hn)
  after := h.after

theorem Printed.read (h : Printed n e ts) (hplain : NoPowMinus ts) {v : V}
    (hv : value N vars e = some v) {s : State V} (hprev : expects s.prev = true)
    (hfits : Fits n s.ops) :
    ∃ s' pend, run N vars s ts = .ok s' ∧ Read N n v s s' pend := by
  induction h generalizing s v with
  | num n =>
    refine ⟨⟨v :: s.output, s.ops, some (.number n.text)⟩, [], ?_,
      ⟨rfl, rfl, List.forall_mem_nil _, fun _ => rfl, rfl⟩⟩
    rw [run_of_step]
    · rfl
    · simp only [step, show N.parseDouble (String.ofList n.text) = some v from hv]
  | var x =>
    refine ⟨⟨v :: s.output, s.ops, some (.name x.text)⟩, [], ?_,
      ⟨rfl, rfl, List.forall_mem_nil _, fun _ => rfl, rfl⟩⟩
    rw [run_of_step]
    · rfl
    · simp only [step, show vars (String.ofList x.text) = some v from hv]
  | @group e ts h ih =>
    have hinner : NoPowMinus ts := (List.isChain_append.mp (List.isChain_cons.mp hplain).2).1
    obtain ⟨mid, pend, hrun, hread⟩ := ih hinner hv
      (s := ⟨s.output, .paren :: s.ops, some .lparen⟩) rfl (by
        intro top htop
        cases htop
        decide)
    refine ⟨⟨v :: s.output, s.ops, some .rparen⟩, [], ?_,
      ⟨rfl, rfl, List.forall_mem_nil _, fun _ => rfl, rfl⟩⟩
    rw [List.cons_append, run_of_step _ rfl, run_of_run _ hrun, run_of_step]
    · rfl
    · have hpop : popWhile N (· ≠ .paren) (pend ++ .paren :: s.ops) _ = _ := popWhile_append
        (fun o ho => decide_eq_true (hread.strong o ho).1) (fun top htop => by
          cases htop
          rfl) hread.value
      unfold step
      dsimp only
      rw [hread.ops, hpop]
      rfl
  | @power a b ts us h h' ih ih' =>
    obtain ⟨va, hva, hb⟩ := Option.bind_eq_some_iff.mp hv
    obtain ⟨vb, hvb, hbin⟩ := Option.bind_eq_some_iff.mp hb
    cases hbin
    obtain ⟨hleft, hright, -⟩ := List.isChain_append.mp hplain
    obtain ⟨mid, pend, hrun, hread⟩ := ih hleft hva hprev (hfits.loosen (Nat.le_succ 4))
    obtain rfl := hread.atom le_rfl
    have hstep : step N vars mid (.operator .pow) = _ :=
      hread.operator (List.forall_mem_nil _) hfits
    obtain ⟨s', pend', hrun', hread'⟩ := ih' (List.isChain_cons.mp hright).2 hvb
      (s := ⟨va :: s.output, .op .pow :: s.ops, some (.operator .pow)⟩) rfl (by
        intro top htop
        cases htop
        decide)
    refine ⟨s', pend' ++ [.op .pow], ?_,
      hread'.push rfl rfl (by decide) (by decide) le_rfl (by decide)⟩
    rw [run_of_run _ hrun, run_of_step _ hstep, hrun']
  | powerNeg h h' ih ih' =>
    obtain ⟨-, hright, -⟩ := List.isChain_append.mp hplain
    exact absurd ⟨rfl, rfl⟩ ((List.isChain_cons_cons.mp hright).1)
  | @neg e ts h ih =>
    obtain ⟨w, hw, rfl⟩ := Option.map_eq_some_iff.mp hv
    obtain ⟨s', pend, hrun, hread⟩ := ih (List.isChain_cons.mp hplain).2 hw
      (s := ⟨s.output, .unary :: s.ops, some (.operator .sub)⟩) rfl (by
        intro top htop
        cases htop
        decide)
    refine ⟨s', pend ++ [.unary], ?_, hread.push rfl rfl (by decide) (by decide) le_rfl (by decide)⟩
    rw [run_of_step _ (step_sign hprev hfits), hrun]
  | @left o a b ts us ho h h' ih ih' =>
    obtain ⟨va, hva, hb⟩ := Option.bind_eq_some_iff.mp hv
    obtain ⟨vb, hvb, hbin⟩ := Option.bind_eq_some_iff.mp hb
    cases hbin
    obtain ⟨hleft, hright, -⟩ := List.isChain_append.mp hplain
    obtain ⟨mid, pend, hrun, hread⟩ := ih hleft hva hprev hfits
    have hstep : step N vars mid (.operator o) = _ := hread.operator_left ho hfits
    have hlevel := (level_of_left ho).2
    obtain ⟨s', pend', hrun', hread'⟩ := ih' (List.isChain_cons.mp hright).2 hvb
      (s := ⟨va :: s.output, .op o :: s.ops, some (.operator o)⟩) rfl (by
        intro top htop
        cases htop
        exact Nat.lt_succ_self _)
    refine ⟨s', pend' ++ [.op o], ?_,
      hread'.push rfl rfl (by simp) (min_le_left _ _) (Nat.le_succ _) (by omega)⟩
    rw [run_of_run _ hrun, run_of_step _ hstep, hrun']
  | loosen h ih =>
    obtain ⟨s', pend, hrun, hread⟩ := ih hplain hv hprev (hfits.loosen (Nat.le_succ _))
    refine ⟨s', pend, hrun, hread.ops, hread.value, fun o ho => ⟨(hread.strong o ho).1, ?_⟩,
      fun hle => hread.atom (hle.trans (Nat.le_succ _)), hread.after⟩
    have := (hread.strong o ho).2
    omega

theorem finish_read {v : V} {st' : State V} {pend : List Pending}
    (h : Read N n v ⟨[], [], none⟩ st' pend) : finish N st' = .ok v := by
  have hdrain : ∀ (pend : List Pending) (out : List V), (∀ o ∈ pend, o ≠ .paren) →
      drain N pend out = applyAll N pend out := by
    intro pend
    induction pend with
    | nil => exact fun _ _ => rfl
    | cons o pend ih =>
      intro out hpend
      obtain ⟨ho, hpend⟩ := List.forall_mem_cons.mp hpend
      unfold drain
      rw [if_neg ho]
      exact congrArg (applyOp N o out >>= ·) (funext fun mid => ih mid hpend)
  unfold finish
  rw [h.ops, List.append_nil, hdrain pend _ fun o ho => (h.strong o ho).1, h.value]
  rfl

end Printed

/-! ## A sign directly after a power

The operations are read over the shapes of trees: a value lists, for each of its operands, the
extent of the tree that starts there. -/

def spans : Numbers (List ℕ) where
  parseDouble _ := some [1]
  neg := id
  apply _ a b := (a.length + b.length) :: (a.tail ++ b)

theorem spans_apply (o : Operator) (x : ℕ) (xs ys : List ℕ) :
    spans.apply o (x :: xs) ys = (xs.length + 1 + ys.length) :: (xs ++ ys) := rfl

theorem spans_left (o : Operator) {x i d : ℕ} {xs : List ℕ} (ys : List ℕ) (h : xs[i]? = some d) :
    (spans.apply o (x :: xs) ys)[i + 1]? = some d := by
  rw [spans_apply, List.getElem?_cons_succ,
    List.getElem?_append_left (List.getElem?_eq_some_iff.mp h).1, h]

theorem spans_right (o : Operator) (x : ℕ) (xs ys : List ℕ) (i : ℕ) :
    (spans.apply o (x :: xs) ys)[xs.length + 1 + i]? = ys[i]? := by
  rw [spans_apply, Nat.add_right_comm _ 1 i, List.getElem?_cons_succ,
    List.getElem?_append_right (Nat.le_add_right _ _), Nat.add_sub_cancel_left]

def shape {C : CharClass} : Expr C → List ℕ
  | .num _ | .var _ => [1]
  | .neg e => shape e
  | .bin o a b => spans.apply o (shape a) (shape b)

section Shapes

variable {C : CharClass} {n : ℕ} {e a b : Expr C} {ts : List Token}

def ones : String → Option (List ℕ) := fun _ => some [1]

theorem value_spans (e : Expr C) : value spans ones e = some (shape e) := by
  induction e with
  | num n => rfl
  | var x => rfl
  | neg e ih =>
    rw [value, ih]
    rfl
  | bin o a b iha ihb =>
    rw [value, iha, ihb]
    rfl

theorem shape_head (e : Expr C) : ∃ rest, shape e = (rest.length + 1) :: rest := by
  induction e with
  | num n => exact ⟨[], rfl⟩
  | var x => exact ⟨[], rfl⟩
  | neg e ih => exact ih
  | bin o a b iha ihb =>
    obtain ⟨as, ha⟩ := iha
    refine ⟨as ++ shape b, ?_⟩
    rw [shape, ha, spans_apply, List.length_append, Nat.add_right_comm]

theorem shape_left (o : Operator) {i x : ℕ} (h : (shape a)[i]? = some x) :
    ∃ y, (shape (.bin o a b))[i]? = some y ∧ x ≤ y := by
  obtain ⟨as, ha⟩ := shape_head a
  rw [shape, ha]
  rw [ha] at h
  cases i with
  | zero =>
    cases h
    exact ⟨_, rfl, Nat.le_add_right _ _⟩
  | succ i => exact ⟨x, spans_left o _ h, le_rfl⟩

theorem shape_right (o : Operator) {i x : ℕ} (h : (shape b)[i]? = some x) :
    (shape (.bin o a b))[(shape a).length + i]? = some x := by
  obtain ⟨as, ha⟩ := shape_head a
  rw [shape, ha, List.length_cons, spans_right, h]

def leaves (out : List (List ℕ)) : ℕ := (out.map List.length).sum

/-- The extent at a position inside a value, where no later application changes it. -/
def Frozen (k d : ℕ) (out : List (List ℕ)) : Prop :=
  (∀ x ∈ out, x ≠ []) ∧ ∃ above entry below i, out = above ++ entry :: below ∧ 0 < i ∧
    k = leaves below + i ∧ entry[i]? = some d

theorem Frozen.push {k d : ℕ} {out : List (List ℕ)} (h : Frozen k d out) : Frozen k d ([1] :: out) := by
  obtain ⟨hsolid, above, entry, below, i, rfl, hi, hk, hd⟩ := h
  exact ⟨List.forall_mem_cons.mpr ⟨List.cons_ne_nil _ _, hsolid⟩, [1] :: above, entry, below, i, rfl,
    hi, hk, hd⟩

theorem applyOp_solid {o : Pending} {out out' : List (List ℕ)} (h : ∀ x ∈ out, x ≠ [])
    (happly : applyOp spans o out = .ok out') : ∀ x ∈ out', x ≠ [] := by
  unfold applyOp at happly
  split at happly
  · cases happly
    exact h
  · cases happly
    exact List.forall_mem_cons.mpr ⟨List.cons_ne_nil _ _,
      (List.forall_mem_cons.mp (List.forall_mem_cons.mp h).2).2⟩
  · cases happly
  · cases happly

theorem Frozen.apply {k d : ℕ} {o : Pending} {out out' : List (List ℕ)} (h : Frozen k d out)
    (happly : applyOp spans o out = .ok out') : Frozen k d out' := by
  obtain ⟨hsolid, above, entry, below, i, hout, hi, hk, hd⟩ := h
  refine ⟨applyOp_solid hsolid happly, ?_⟩
  unfold applyOp at happly
  split at happly
  · cases happly
    exact ⟨above, entry, below, i, hout, hi, hk, hd⟩
  · rename_i y x rest
    cases happly
    have hx : x ≠ [] := hsolid x (by simp)
    obtain ⟨x₀, xs, rfl⟩ := List.exists_cons_of_ne_nil hx
    match above with
    | [] =>
      -- the position is in the right operand, which moves behind the left one
      obtain ⟨rfl, rfl⟩ := List.cons.inj hout
      refine ⟨[], _, rest, xs.length + 1 + i, rfl, by omega, ?_, ?_⟩
      · rw [hk, leaves, leaves, List.map_cons, List.sum_cons, List.length_cons]
        omega
      · rw [spans_right, hd]
    | [z] =>
      -- the position is in the left operand, whose first extent alone changes
      simp only [List.cons_append, List.nil_append, List.cons.injEq] at hout
      obtain ⟨rfl, rfl, rfl⟩ := hout
      refine ⟨[], _, rest, i, rfl, hi, hk, ?_⟩
      obtain ⟨j, rfl⟩ := Nat.exists_eq_add_of_lt hi
      rw [Nat.zero_add] at hd ⊢
      exact spans_left _ _ hd
    | z :: w :: above =>
      simp only [List.cons_append, List.cons.injEq] at hout
      obtain ⟨rfl, rfl, rfl⟩ := hout
      exact ⟨_ :: above, entry, below, i, rfl, hi, hk, hd⟩
  · cases happly
  · cases happly

/-! ## What every step keeps -/

variable {Q : List (List ℕ) → Prop}

theorem popWhile_keeps (happly : ∀ o out out', Q out → applyOp spans o out = .ok out' → Q out')
    {p : Pending → Bool} {ops : List Pending} {out : List (List ℕ)}
    {r : List Pending × List (List ℕ)} (h : popWhile spans p ops out = .ok r) (hq : Q out) :
    Q r.2 := by
  induction ops generalizing out with
  | nil =>
    cases h
    exact hq
  | cons o ops ih =>
    unfold popWhile at h
    split at h
    · obtain ⟨mid, hmid, hrest⟩ := bind_ok h
      exact ih hrest (happly _ _ _ hq hmid)
    · cases h
      exact hq

theorem drain_keeps (happly : ∀ o out out', Q out → applyOp spans o out = .ok out' → Q out')
    {ops : List Pending} {out out' : List (List ℕ)} (h : drain spans ops out = .ok out')
    (hq : Q out) : Q out' := by
  induction ops generalizing out with
  | nil =>
    cases h
    exact hq
  | cons o ops ih =>
    unfold drain at h
    split at h
    · cases h
    · obtain ⟨mid, hmid, hrest⟩ := bind_ok h
      exact ih hrest (happly _ _ _ hq hmid)

theorem run_keeps (happly : ∀ o out out', Q out → applyOp spans o out = .ok out' → Q out')
    (hpush : ∀ out, Q out → Q ([1] :: out)) {st st' : State (List ℕ)}
    (h : run spans ones st ts = .ok st') (hq : Q st.output) : Q st'.output := by
  induction ts generalizing st with
  | nil =>
    cases h
    exact hq
  | cons tok ts ih =>
    obtain ⟨mid, hmid, hrest⟩ := bind_ok h
    refine ih hrest ?_
    cases tok with
    | number t | name t =>
      cases hmid
      exact hpush _ hq
    | lparen =>
      cases hmid
      exact hq
    | rparen =>
      obtain ⟨r, hpop, hmid⟩ := bind_ok hmid
      have hkeeps := popWhile_keeps happly hpop hq
      split at hmid
      · cases hmid
      · cases hmid
        exact hkeeps
    | operator o =>
      obtain ⟨r, hpop, hmid⟩ := bind_ok hmid
      have hkeeps := popWhile_keeps happly hpop hq
      cases hmid
      exact hkeeps
    | unexpected t => cases hmid

theorem run_frozen {k d : ℕ} {st st' : State (List ℕ)} (h : run spans ones st ts = .ok st')
    (hfrozen : Frozen k d st.output) : Frozen k d st'.output :=
  run_keeps (fun _ _ _ => Frozen.apply) (fun _ => Frozen.push) h hfrozen

/-! ## The misread position -/

/-- After a text of `e` the stack holds a frozen extent that is smaller than the one in `e`. -/
def Misread (out out' : List (List ℕ)) (e : Expr C) : Prop :=
  ∃ i d x, Frozen (leaves out + i) d out' ∧ (shape e)[i]? = some x ∧ d < x

theorem Misread.left {mid : State (List ℕ)} {st' : State (List ℕ)} {out : List (List ℕ)}
    (h : Misread out mid.output a) (o : Operator) (hrun : run spans ones mid ts = .ok st') :
    Misread out st'.output (.bin o a b) := by
  obtain ⟨i, d, x, hfrozen, hx, hlt⟩ := h
  obtain ⟨y, hy, hle⟩ := shape_left (b := b) o hx
  exact ⟨i, d, y, run_frozen hrun hfrozen, hy, hlt.trans_le hle⟩

theorem Misread.right {out out' : List (List ℕ)} (h : Misread (shape a :: out) out' b)
    (o : Operator) : Misread out out' (.bin o a b) := by
  obtain ⟨i, d, x, hfrozen, hx, hlt⟩ := h
  refine ⟨(shape a).length + i, d, x, ?_, shape_right o hx, hlt⟩
  rw [leaves, List.map_cons, List.sum_cons] at hfrozen
  rwa [leaves, ← Nat.add_assoc, Nat.add_comm _ (shape a).length]

theorem noPowMinus_append {us : List Token} {t : Token} (hts : NoPowMinus ts) (hus : NoPowMinus us)
    (hlast : ∀ x ∈ ts.getLast?, x ≠ .operator .pow)
    (hhead : t = .operator .pow → ∀ y ∈ us.head?, y ≠ .operator .sub) :
    NoPowMinus (ts ++ t :: us) := by
  refine List.isChain_append.mpr ⟨hts, List.isChain_cons.mpr ⟨fun y hy hand => ?_, hus⟩,
    fun x hx y _ hand => hlast x hx hand.1⟩
  exact hhead hand.1 y hy hand.2

theorem Printed.last (h : Printed n e ts) : ∀ x ∈ ts.getLast?, x ≠ .operator .pow := by
  rintro x hx rfl
  obtain ⟨front, rfl⟩ := List.getLast?_eq_some_iff.mp hx
  have hlast := (h.separated (q := none) rfl).2
  unfold lastToken at hlast
  rw [List.foldl_append] at hlast
  cases hlast

theorem Printed.head (h : Printed n e ts) (hn : 4 ≤ n) : ∀ y ∈ ts.head?, y ≠ .operator .sub := by
  have hskip : ∀ {ts us : List Token}, (∀ y ∈ ts.head?, y ≠ .operator .sub) →
      ∀ y ∈ (ts ++ .operator .pow :: us).head?, y ≠ .operator .sub := by
    intro ts us hts y hy
    cases ts with
    | nil =>
      cases hy
      exact nofun
    | cons t ts => exact hts y hy
  induction h with
  | num n =>
    intro y hy
    cases hy
    exact nofun
  | var x =>
    intro y hy
    cases hy
    exact nofun
  | group h ih =>
    intro y hy
    cases hy
    exact nofun
  | power h h' ih ih' => exact hskip (ih (Nat.le_succ 4))
  | powerNeg h h' ih ih' => exact hskip (ih (Nat.le_succ 4))
  | neg h ih => exact absurd hn (by decide)
  | @left o _ _ _ _ ho h h' ih ih' =>
    cases o with
    | pow => exact absurd rfl ho
    | add | sub | mul | div | rem => exact absurd hn (by decide)
  | loosen h ih => exact ih (hn.trans (Nat.le_succ _))

theorem freeze {vs : List ℕ} {st st' : State (List ℕ)} {ops : List Pending}
    {before : List (List ℕ)} (hsolid : ∀ x ∈ before, x ≠ []) (hops : st.ops = .op .pow :: ops)
    (hout : st.output = ((vs.length + 1) :: vs) :: before)
    (hprev : st.prev = some (.operator .pow))
    (hrun : run spans ones st (.operator .sub :: ts) = .ok st') :
    Frozen (leaves before) (vs.length + 1) st'.output := by
  have hall : ∀ x ∈ ((vs.length + 1) :: vs) :: before, x ≠ [] :=
    List.forall_mem_cons.mpr ⟨List.cons_ne_nil _ _, hsolid⟩
  obtain ⟨next, hnext, hrest⟩ := bind_ok hrun
  refine run_frozen hrest ?_
  obtain ⟨r, hpop, hnext⟩ := bind_ok hnext
  rw [hprev, hops, hout] at hpop
  cases hnext
  unfold popWhile at hpop
  rw [if_pos (by decide)] at hpop
  obtain ⟨applied, happlied, hpop⟩ := bind_ok hpop
  refine popWhile_keeps (fun _ _ _ => Frozen.apply) hpop ⟨applyOp_solid hall happlied, ?_⟩
  cases before with
  | nil => cases happlied
  | cons x below =>
    obtain ⟨y, ys, rfl⟩ := List.exists_cons_of_ne_nil (hsolid x List.mem_cons_self)
    cases happlied
    refine ⟨[], _, below, ys.length + 1, rfl, Nat.succ_pos _, Nat.add_comm _ _, ?_⟩
    exact spans_right .pow y ys _ 0

theorem Printed.misread (h : Printed n e ts) (hbad : ¬ NoPowMinus ts) {s s' : State (List ℕ)}
    (hprev : expects s.prev = true) (hfits : Fits n s.ops) (hsolid : ∀ x ∈ s.output, x ≠ [])
    (hrun : run spans ones s ts = .ok s') : Misread s.output s'.output e := by
  have hpush : ∀ {out : List (List ℕ)} (e : Expr C), (∀ x ∈ out, x ≠ []) →
      ∀ x ∈ shape e :: out, x ≠ [] := fun e hout => by
    obtain ⟨rest, hrest⟩ := shape_head e
    exact List.forall_mem_cons.mpr ⟨by rw [hrest]; exact List.cons_ne_nil _ _, hout⟩
  induction h generalizing s s' with
  | num n => exact absurd (List.isChain_singleton _) hbad
  | var x => exact absurd (List.isChain_singleton _) hbad
  | @group e ts h ih =>
    have hinner : ¬ NoPowMinus ts := fun hts => by
      have hclosed : NoPowMinus (ts ++ [.rparen]) :=
        noPowMinus_append hts List.isChain_nil h.last nofun
      exact hbad (List.isChain_cons.mpr ⟨fun y _ hand => (nomatch hand.1), hclosed⟩)
    rw [List.cons_append, run_of_step _ rfl, run_append] at hrun
    obtain ⟨mid, hmid, hrest⟩ := bind_ok hrun
    obtain ⟨i, d, x, hfrozen, hx, hlt⟩ := ih hinner (s := ⟨s.output, .paren :: s.ops, _⟩) rfl (by
      intro top htop
      cases htop
      decide) hsolid hmid
    exact ⟨i, d, x, run_frozen hrest hfrozen, hx, hlt⟩
  | @power a b ts us h h' ih ih' =>
    by_cases hts : NoPowMinus ts
    · have hus : ¬ NoPowMinus us := fun hus =>
        hbad (noPowMinus_append hts hus h.last fun _ => h'.head le_rfl)
      obtain ⟨mid, pend, hmid, hread⟩ := h.read hts (value_spans a) hprev (hfits.loosen (Nat.le_succ 4))
      obtain rfl := hread.atom le_rfl
      rw [run_of_run _ hmid, run_of_step _ (hread.operator (o := .pow) nofun hfits)] at hrun
      exact (ih' hus (s := ⟨shape a :: s.output, .op .pow :: s.ops, _⟩) rfl (by
        intro top htop
        cases htop
        decide) (hpush a hsolid) hrun).right .pow
    · rw [run_append] at hrun
      obtain ⟨mid, hmid, hrest⟩ := bind_ok hrun
      exact (ih hts hprev (hfits.loosen (Nat.le_succ 4)) hsolid hmid).left .pow hrest
  | @powerNeg a b ts us h h' ih ih' =>
    by_cases hts : NoPowMinus ts
    · obtain ⟨mid, pend, hmid, hread⟩ := h.read hts (value_spans a) hprev (hfits.loosen (Nat.le_succ 4))
      obtain rfl := hread.atom le_rfl
      rw [run_of_run _ hmid, run_of_step _ (hread.operator (o := .pow) nofun hfits)] at hrun
      obtain ⟨as, ha⟩ := shape_head a
      obtain ⟨bs, hb⟩ := shape_head b
      refine ⟨0, as.length + 1, as.length + 1 + (bs.length + 1), ?_, ?_, ?_⟩
      · exact freeze hsolid rfl (by rw [ha]) rfl hrun
      · rw [shape, shape, ha, hb]
        rfl
      · exact Nat.lt_add_of_pos_right (Nat.succ_pos _)
    · rw [run_append] at hrun
      obtain ⟨mid, hmid, hrest⟩ := bind_ok hrun
      exact (ih hts hprev (hfits.loosen (Nat.le_succ 4)) hsolid hmid).left .pow hrest
  | @neg e ts h ih =>
    have hinner : ¬ NoPowMinus ts := fun hts =>
      hbad (List.isChain_cons.mpr ⟨fun y _ hand => (nomatch hand.1), hts⟩)
    rw [run_of_step _ (step_sign hprev hfits)] at hrun
    exact ih hinner (s := ⟨s.output, .unary :: s.ops, _⟩) rfl (by
      intro top htop
      cases htop
      decide) hsolid hrun
  | @left o a b ts us ho h h' ih ih' =>
    by_cases hts : NoPowMinus ts
    · have hus : ¬ NoPowMinus us := fun hus =>
        hbad (noPowMinus_append hts hus h.last fun heq => absurd (Token.operator.inj heq) ho)
      obtain ⟨mid, pend, hmid, hread⟩ := h.read hts (value_spans a) hprev hfits
      rw [run_of_run _ hmid, run_of_step _ (hread.operator_left ho hfits)] at hrun
      exact (ih' hus (s := ⟨shape a :: s.output, .op o :: s.ops, _⟩) rfl (by
        intro top htop
        cases htop
        exact Nat.lt_succ_self _) (hpush a hsolid) hrun).right o
    · rw [run_append] at hrun
      obtain ⟨mid, hmid, hrest⟩ := bind_ok hrun
      exact (ih hts hprev hfits hsolid hmid).left o hrest
  | loosen h ih => exact ih hbad hprev (hfits.loosen (Nat.le_succ _)) hsolid hrun

/-! ## The result -/

/-- The text is evaluated to the value of the tree, whatever the operations are. -/
def EvaluatesTo (C : CharClass) (e : Expr C) (ts : List Token) : Prop :=
  ∀ (V : Type) (N : Numbers V) (vars : String → Option V) (v : V), value N vars e = some v →
    evaluate N vars C (text ts) = .ok v

/-- **A printed tree is evaluated to its value exactly when no sign stands directly after a `^`.** -/
theorem evaluatesTo_iff (h : Printed 1 e ts) : EvaluatesTo C e ts ↔ NoPowMinus ts := by
  have hscan := scan_text h.lexical (h.separated (q := none) rfl).1
  constructor
  · intro heval
    by_contra hbad
    have hok := heval _ spans ones _ (value_spans e)
    unfold evaluate at hok
    rw [hscan] at hok
    obtain ⟨st, hrun, hfinish⟩ := bind_ok hok
    obtain ⟨i, d, x, hfrozen, hx, hlt⟩ := h.misread hbad (s := ⟨[], [], none⟩) rfl
      (fun top htop => by cases htop) (fun x hx => absurd hx List.not_mem_nil) hrun
    obtain ⟨-, above, entry, below, j, hsplit, -, hk, hd⟩ :=
      drain_keeps (fun _ _ _ => Frozen.apply) (finish_ok hfinish) hfrozen
    obtain ⟨rfl, rest⟩ : above = [] ∧ below = [] := by
      have hlength := congrArg List.length hsplit
      rw [List.length_append, List.length_cons, List.length_cons, List.length_nil] at hlength
      exact ⟨List.length_eq_zero_iff.mp (by omega), List.length_eq_zero_iff.mp (by omega)⟩
    subst rest
    cases hsplit
    have hi : i = j := by
      simpa [leaves] using hk
    rw [← hi, hx] at hd
    exact absurd (Option.some.inj hd) hlt.ne'
  · intro hplain V N vars v hv
    have hfits : Fits 1 (⟨[], [], none⟩ : State V).ops := nofun
    obtain ⟨st, pend, hrun, hread⟩ := h.read hplain hv rfl hfits
    unfold evaluate
    rw [hscan]
    dsimp only
    rw [hrun]
    exact finish_read hread

def digit (c : Char) (h : c.isDigit = true) (he : c ≠ 'e' ∧ c ≠ 'E') : Numeral ascii :=
  ⟨c, [], Or.inr h, rfl, he⟩

/-- `1+2^(-3)`, and `1+2^-3`. -/
def oneEighthMore : Expr ascii :=
  .bin .add (.num (digit '1' rfl (by decide)))
    (.bin .pow (.num (digit '2' rfl (by decide))) (.neg (.num (digit '3' rfl (by decide)))))

/-- With the exponent in a group. -/
theorem evaluatesTo_grouped :
    let ts : List Token := [.number ['1'], .operator .add, .number ['2'], .operator .pow, .lparen,
      .operator .sub, .number ['3'], .rparen]
    EvaluatesTo ascii oneEighthMore ts ↔ NoPowMinus ts := by
  have hsign : Printed 3 (.neg (.num (digit '3' rfl (by decide)))) [.operator .sub, .number ['3']] :=
    .neg (.loosen (.loosen (.num _)))
  have hgroup : Printed 5 (.neg (.num (digit '3' rfl (by decide))))
      [.lparen, .operator .sub, .number ['3'], .rparen] := .group (.loosen (.loosen hsign))
  have hpower := Printed.power (.num (digit '2' rfl (by decide))) (.loosen hgroup)
  have hone : Printed 1 (.num (digit '1' rfl (by decide))) _ :=
    .loosen (.loosen (.loosen (.loosen (.num _))))
  exact evaluatesTo_iff (.left (o := .add) (by decide) hone (.loosen (.loosen hpower)))

/-- `1+2^-3` is evaluated as `(1^2)+(-3)`. -/
theorem misreads_bare_exponent : ¬ ∀ (C : CharClass) (e : Expr C) (ts : List Token),
    Printed 1 e ts → EvaluatesTo C e ts := by
  intro h
  have hsign : Printed 3 (.num (digit '3' rfl (by decide))) [.number ['3']] :=
    .loosen (.loosen (.num _))
  have hpower := Printed.powerNeg (.num (digit '2' rfl (by decide))) hsign
  have hone : Printed 1 (.num (digit '1' rfl (by decide))) _ :=
    .loosen (.loosen (.loosen (.loosen (.num _))))
  have hprinted : Printed 1 oneEighthMore _ :=
    .left (o := .add) (by decide) hone (.loosen (.loosen hpower))
  have heval := h _ _ _ hprinted _ whole (fun _ => none) 2 rfl
  have hscan := scan_text hprinted.lexical (hprinted.separated (q := none) rfl).1
  unfold evaluate at heval
  rw [hscan] at heval
  cases heval

end Shapes

end OpenBridge.Calculations
