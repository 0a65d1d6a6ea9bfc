/-
# The structure of formulas

The LaTeX source of an expression is a sum of products of units, where a unit is a number, a symbol,
a call, a fraction, a power, a group in parentheses, or a minus sign in front of another unit.
`Formula` is this structure, `chars` is its source, and `meaning` is the expression that a reader
sees in it: products bind tighter than sums, and both are grouped to the left.

The source determines the structure (`chars_injective`).  The reason is that the source can be taken
apart from the left without a choice.  The first characters of a unit tell its kind (`Lead`), the
end of each part can be seen from the character after it (`Stops`), and a number, a word or a name
is a run of characters that the next one does not continue (`run_injective`).
-/
import Fluxion.Expr.Latex
import Fluxion.Proofs.Numeral.Distinct
import Fluxion.Proofs.Token.Spelling

namespace Fluxion

namespace Latex

open Numeral

/-! ## 1. Runs -/

/-- A run of things of one kind ends where the kind ends. -/
theorem run_injective {α : Type} {p : α → Bool} {as bs s t : List α} (ha : ∀ c ∈ as, p c = true)
    (hb : ∀ c ∈ bs, p c = true) (hs : ∀ c ∈ s.head?, p c = false)
    (ht : ∀ c ∈ t.head?, p c = false) (h : as ++ s = bs ++ t) : as = bs ∧ s = t := by
  induction as generalizing bs with
  | nil =>
    cases bs with
    | nil => exact ⟨rfl, h⟩
    | cons b bs =>
      have hs' : s = b :: (bs ++ t) := h
      have hfalse := hs b (by rw [hs']; rfl)
      rw [hb b List.mem_cons_self] at hfalse
      cases hfalse
  | cons a as ih =>
    cases bs with
    | nil =>
      have ht' : t = a :: (as ++ s) := h.symm
      have hfalse := ht a (by rw [ht']; rfl)
      rw [ha a List.mem_cons_self] at hfalse
      cases hfalse
    | cons b bs =>
      obtain ⟨rfl, htail⟩ := List.cons.inj h
      obtain ⟨rfl, hrest⟩ := ih (fun c hc => ha c (List.mem_cons_of_mem a hc))
        (fun c hc => hb c (List.mem_cons_of_mem a hc)) htail
      exact ⟨rfl, hrest⟩

/-! ## 2. Names of functions -/

/-- The parenthesis that opens a group. -/
def opening : List Char := ['\\', 'l', 'e', 'f', 't', '(']

/-- The name of a function: a word, and the number of primes behind it. -/
structure Name where
  base : List Char
  isWord : IsWord base
  primes : Nat

namespace Name

variable (f : Name)

/-- The primes. -/
def tail : List Char := List.replicate f.primes '\''

/-- The name as a text. -/
def text : String := String.ofList (f.base ++ f.tail)

/-- LaTeX has a command for it. -/
def IsCommand : Prop := String.ofList f.base ∈ commands

instance : Decidable f.IsCommand := inferInstanceAs (Decidable (_ ∈ _))

/-- The letters behind the backslash. -/
def command : List Char := if f.IsCommand then f.base else "operatorname".toList

/-- What stands between the command and the primes. -/
def argument : List Char := if f.IsCommand then [] else '\x7b' :: f.base ++ ['\x7d']

/-- The source of the name. -/
def chars : List Char := '\\' :: (f.command ++ f.argument ++ f.tail)

theorem tail_isPrime : ∀ c ∈ f.tail, (c == '\'') = true := by
  intro c hc
  rw [List.eq_of_mem_replicate hc]
  rfl

theorem base_isNotPrime : ∀ c ∈ f.base, (c == '\'') = false := by
  intro c hc
  have hletter : c.isAlpha = true := f.isWord.2 c hc
  rw [beq_eq_false_iff_ne]
  rintro rfl
  cases hletter

/-- The primes are cut off from the name. -/
theorem splitPrimes_text : splitPrimes f.text = (String.ofList f.base, String.ofList f.tail) := by
  have htail : f.tail.reverse = f.tail := by simp [tail]
  have hdrop : (f.tail ++ f.base.reverse).dropWhile (· == '\'') = f.base.reverse := by
    rw [List.dropWhile_append_of_pos f.tail_isPrime]
    cases hbase : f.base.reverse with
    | nil => rfl
    | cons c cs =>
      have hc : (c == '\'') = false :=
        f.base_isNotPrime c (List.mem_reverse.mp (hbase ▸ List.mem_cons_self))
      simp [hc]
  have htake : (f.tail ++ f.base.reverse).takeWhile (· == '\'') = f.tail := by
    rw [List.takeWhile_append_of_pos f.tail_isPrime]
    cases hbase : f.base.reverse with
    | nil => simp
    | cons c cs =>
      have hc : (c == '\'') = false :=
        f.base_isNotPrime c (List.mem_reverse.mp (hbase ▸ List.mem_cons_self))
      simp [hc]
  have hreverse : f.text.toList.reverse = f.tail ++ f.base.reverse := by
    rw [text, String.toList_ofList, List.reverse_append, htail]
  have hdecide : (fun c : Char => decide (c = '\'')) = (· == '\'') := rfl
  simp only [splitPrimes, hreverse, hdecide, hdrop, htake, List.reverse_reverse]

/-- **The source of a name.** -/
theorem functionName_text : functionName f.text = String.ofList f.chars := by
  rw [functionName, f.splitPrimes_text]
  by_cases h : f.IsCommand
  · have hmem : String.ofList f.base ∈ commands := h
    simp [hmem, chars, command, argument, h, ← String.toList_inj]
  · have hmem : String.ofList f.base ∉ commands := h
    simp [hmem, chars, command, argument, h, braced, ← String.toList_inj]

theorem text_ne_negation : f.text ≠ negation := by
  intro htext
  obtain ⟨c, rest, hbase⟩ := List.exists_cons_of_ne_nil f.isWord.1
  have hletter : c.isAlpha = true := f.isWord.2 c (hbase ▸ List.mem_cons_self)
  have hchars : c :: (rest ++ f.tail) = ['-'] := by
    rw [← List.cons_append, ← hbase]
    exact String.ofList_injective htext
  rw [(List.cons.inj hchars).1] at hletter
  cases hletter

theorem base_of_isCommand (h : f.IsCommand) : f.base ∈ commands.map String.toList :=
  List.mem_map.mpr ⟨_, h, String.toList_ofList⟩

theorem command_letters : ∀ c ∈ f.command, c.isAlpha = true := by
  unfold command
  split
  · next h =>
    have hall : ∀ cs ∈ commands.map String.toList, ∀ c ∈ cs, c.isAlpha = true := by
      simp [commands]
    exact hall _ (f.base_of_isCommand h)
  · simp

/-- The command ends in front of a brace, a prime or a backslash. -/
theorem argument_head (s : List Char) :
    ∀ c ∈ (f.argument ++ (f.tail ++ (opening ++ s))).head?, c.isAlpha = false := by
  unfold argument
  split
  · cases hprimes : f.primes with
    | zero => simp [tail, hprimes, opening]
    | succ n => simp [tail, hprimes, List.replicate_succ]
  · simp

/-- Two names with one command have one base, and what follows is the same. -/
theorem base_injective {f g : Name} {s t : List Char} (hcommand : f.command = g.command)
    (h : f.argument ++ s = g.argument ++ t) : f.base = g.base ∧ s = t := by
  have hother : ∀ f : Name, f.IsCommand → f.base ≠ "operatorname".toList := by
    intro f hf hbase
    have hmem := f.base_of_isCommand hf
    simp [hbase, commands] at hmem
  unfold command at hcommand
  unfold argument at h
  by_cases hf : f.IsCommand <;> by_cases hg : g.IsCommand
  · rw [if_pos hf, if_pos hg] at hcommand h
    exact ⟨hcommand, h⟩
  · rw [if_pos hf, if_neg hg] at hcommand
    exact absurd hcommand (hother f hf)
  · rw [if_neg hf, if_pos hg] at hcommand
    exact absurd hcommand.symm (hother g hg)
  · rw [if_neg hf, if_neg hg] at h
    simp only [List.cons_append, List.append_assoc, List.cons.injEq, true_and] at h
    obtain ⟨hsame, hrest⟩ := run_injective f.isWord.2 g.isWord.2 (by simp) (by simp) h
    exact ⟨hsame, (List.cons.inj hrest).2⟩

/-- **The source of a name determines the name**, and where it ends. -/
theorem chars_injective {f g : Name} {s t : List Char}
    (h : f.chars ++ (opening ++ s) = g.chars ++ (opening ++ t)) :
    f = g ∧ s = t := by
  simp only [chars, List.cons_append, List.append_assoc, List.cons.injEq, true_and] at h
  obtain ⟨hcommand, h⟩ := run_injective f.command_letters g.command_letters
    (f.argument_head s) (g.argument_head t) h
  obtain ⟨hbase, h⟩ := base_injective hcommand h
  obtain ⟨htail, hrest⟩ := run_injective f.tail_isPrime g.tail_isPrime (by simp [opening])
    (by simp [opening]) h
  have hprimes : f.primes = g.primes := by simpa [tail] using congrArg List.length htail
  obtain ⟨base, hword, primes⟩ := f
  obtain ⟨base', hword', primes'⟩ := g
  obtain rfl : base = base' := hbase
  obtain rfl : primes = primes' := hprimes
  exact ⟨rfl, List.append_cancel_left hrest⟩

end Name

/-! ## 3. Formulas -/

/-- The parts that formulas are made of. -/
inductive Shape where
  | unit
  | product
  | sum
  | arguments

/-- A formula.  The word of one letter `e` is the constant, every other word is a variable. -/
inductive Formula : Shape → Type where
  | number (v : { v : Float // IsCount v }) : Formula .unit
  | infinite : Formula .unit
  | pi : Formula .unit
  | word (w : { cs : List Char // IsWord cs }) : Formula .unit
  | minus (u : Formula .unit) : Formula .unit
  | call (f : Name) (args : Formula .arguments) : Formula .unit
  | fraction (above below : Formula .sum) : Formula .unit
  | power (base exponent : Formula .sum) : Formula .unit
  | group (inner : Formula .sum) : Formula .unit
  | single (u : Formula .unit) : Formula .product
  | times (u : Formula .unit) (rest : Formula .product) : Formula .product
  | whole (p : Formula .product) : Formula .sum
  | join (p : Formula .product) (subtracts : Bool) (rest : Formula .sum) : Formula .sum
  | one (s : Formula .sum) : Formula .arguments
  | more (s : Formula .sum) (rest : Formula .arguments) : Formula .arguments

namespace Formula

/-- The parenthesis that closes a group. -/
def closing : List Char := ['\\', 'r', 'i', 'g', 'h', 't', ')']

/-- The sign between two factors. -/
def dot : List Char := [' ', '\\', 'c', 'd', 'o', 't', ' ']

/-- The sign between two terms. -/
def signChars (subtracts : Bool) : List Char := [' ', if subtracts then '-' else '+', ' ']

/-- The source of a formula. -/
@[simp] def chars : {k : Shape} → Formula k → List Char
  | _, number v => (numberText v).toList
  | _, infinite => ['\\', 'i', 'n', 'f', 't', 'y']
  | _, pi => ['\\', 'p', 'i']
  | _, word w => w
  | _, minus u => '-' :: u.chars
  | _, call f args => f.chars ++ opening ++ args.chars ++ closing
  | _, fraction a b =>
    ['\\', 'f', 'r', 'a', 'c', '\x7b'] ++ a.chars ++ ['\x7d', '\x7b'] ++ b.chars ++ ['\x7d']
  | _, power a b => ['\x7b'] ++ a.chars ++ ['\x7d', '^', '\x7b'] ++ b.chars ++ ['\x7d']
  | _, group a => opening ++ a.chars ++ closing
  | _, single u => u.chars
  | _, times u p => u.chars ++ dot ++ p.chars
  | _, whole p => p.chars
  | _, join p subtracts s => p.chars ++ signChars subtracts ++ s.chars
  | _, one s => s.chars
  | _, more s args => s.chars ++ [',', ' '] ++ args.chars

/-! ## 4. Unique readability -/

/-- What a part of a formula is followed by, or at its end. -/
inductive Stops : Shape → List Char → Prop where
  | nil (k : Shape) : Stops k []
  | closing (k : Shape) (s : List Char) : Stops k (closing ++ s)
  | comma (s : List Char) : Stops .sum (',' :: s)
  | brace (s : List Char) : Stops .sum ('\x7d' :: s)
  | sign (subtracts : Bool) (s : List Char) : Stops .product (signChars subtracts ++ s)
  | dot (s : List Char) : Stops .unit (dot ++ s)
  | arguments {s : List Char} : Stops .arguments s → Stops .sum s
  | sum {s : List Char} : Stops .sum s → Stops .product s
  | product {s : List Char} : Stops .product s → Stops .unit s

namespace Stops

/-- The characters that end a part. -/
def ends : Shape → List Char
  | .unit | .product => [' ', ',', '\x7d', '\\']
  | .sum => [',', '\x7d', '\\']
  | .arguments => ['\\']

variable {s : List Char}

theorem head_mem {k : Shape} (h : Stops k s) : ∀ c ∈ s.head?, c ∈ ends k := by
  induction h with
  | nil k => nofun
  | closing k s => rintro c ⟨⟩; cases k <;> simp [ends]
  | comma s | brace s | dot s => rintro c ⟨⟩; simp [ends]
  | sign subtracts s => cases subtracts <;> (rintro c ⟨⟩; simp [ends])
  | product h ih => exact ih
  | arguments h ih | sum h ih =>
    intro c hc
    have hmem := ih c hc
    simp only [ends, List.mem_cons, List.not_mem_nil, or_false] at hmem ⊢
    tauto

/-- A character that a unit is followed by continues neither a number nor a word. -/
theorem head (h : Stops .unit s) : ∀ c ∈ s.head?, isNumberChar c = false ∧ c.isAlpha = false := by
  intro c hc
  have hmem := h.head_mem c hc
  simp only [ends, List.mem_cons, List.not_mem_nil, or_false] at hmem
  rcases hmem with rfl | rfl | rfl | rfl <;> decide

/-- Several arguments go on behind a comma. -/
theorem not_comma (s : List Char) : ¬ Stops .arguments (',' :: s) := by
  intro h
  simpa [ends] using h.head_mem ',' rfl

/-- A sum goes on behind a sign. -/
theorem not_sign (subtracts : Bool) (s : List Char) : ¬ Stops .sum (signChars subtracts ++ s) := by
  intro h
  have hhead : ' ' ∈ (signChars subtracts ++ s).head? := by cases subtracts <;> rfl
  simpa [ends] using h.head_mem ' ' hhead

/-- A product goes on behind a dot. -/
theorem not_dot (s : List Char) : ¬ Stops .product (Formula.dot ++ s) := by
  generalize hrest : Formula.dot ++ s = rest
  intro h
  cases h with
  | nil => cases hrest
  | closing _ t => cases hrest
  -- Both begin with a blank; the characters behind it differ.
  | sign subtracts t => cases subtracts <;> cases hrest
  | sum h =>
    subst hrest
    simpa [ends] using h.head_mem ' ' rfl

end Stops

theorem signChars_injective {a b : Bool} {s t : List Char}
    (h : signChars a ++ s = signChars b ++ t) : a = b ∧ s = t := by
  cases a <;> cases b <;> simp_all [signChars]

/-- The kinds of units. -/
inductive Lead where
  | number
  | infinite
  | pi
  | word
  | minus
  | call
  | fraction
  | power
  | group

/-- The kind of unit that a source begins with. -/
def Lead.of : List Char → Lead
  | '-' :: _ => minus
  | '\x7b' :: _ => power
  | '\\' :: 'p' :: _ => pi
  | '\\' :: 'i' :: _ => infinite
  | '\\' :: 'f' :: _ => fraction
  | '\\' :: 'l' :: 'e' :: _ => group
  | '\\' :: _ => call
  | c :: _ => if c.isDigit then number else word
  | [] => word

theorem Lead.of_cons {c : Char} (s : List Char) (hminus : c ≠ '-') (hbrace : c ≠ '\x7b')
    (hcommand : c ≠ '\\') : Lead.of (c :: s) = if c.isDigit then number else word := by
  unfold Lead.of
  split <;> simp_all

theorem Lead.of_digit {c : Char} (h : c.isDigit = true) (s : List Char) :
    Lead.of (c :: s) = number := by
  rw [Lead.of_cons s (by rintro rfl; cases h) (by rintro rfl; cases h) (by rintro rfl; cases h),
    if_pos h]

theorem Lead.of_letter {c : Char} (h : c.isAlpha = true) (s : List Char) :
    Lead.of (c :: s) = word := by
  rw [Lead.of_cons s (by rintro rfl; cases h) (by rintro rfl; cases h) (by rintro rfl; cases h),
    if_neg (by rw [(Scan.not_blank_not_digit_of_isAlpha h).2]; exact Bool.false_ne_true)]

/-- The kind of a unit. -/
def lead : Formula .unit → Lead
  | number _ => .number
  | infinite => .infinite
  | pi => .pi
  | word _ => .word
  | minus _ => .minus
  | call .. => .call
  | fraction .. => .fraction
  | power .. => .power
  | group _ => .group

theorem lead_of_command (f : Name) (s : List Char) : Lead.of (f.chars ++ s) = .call := by
  have hall : ∀ cs ∈ commands.map String.toList, ∀ t, Lead.of ('\\' :: (cs ++ t)) = .call := by
    simp [commands, Lead.of]
  simp only [Name.chars, List.cons_append, List.append_assoc]
  unfold Name.command
  split
  · next h => exact hall _ (f.base_of_isCommand h) _
  · simp [Lead.of]

/-- **The kind of a unit is seen at its beginning.** -/
theorem lead_of_chars (u : Formula .unit) (s : List Char) : Lead.of (u.chars ++ s) = u.lead := by
  cases u with
  | infinite | pi | minus u | fraction a b | power a b | group a => rfl
  | number v =>
    obtain ⟨cs, htext, ⟨⟨c, rest, rfl, hc⟩, -⟩, -⟩ := numberText_spec v.2
    simp only [chars, htext, String.toList_ofList]
    exact Lead.of_digit hc (rest ++ s)
  | word w =>
    obtain ⟨cs, hne, hletters⟩ := w
    obtain ⟨c, rest, rfl⟩ := List.exists_cons_of_ne_nil hne
    exact Lead.of_letter (hletters c List.mem_cons_self) (rest ++ s)
  | call f args =>
    simp only [chars, List.append_assoc, lead]
    exact lead_of_command f _

/-- Units with one source are of one kind. -/
theorem lead_congr {u u' : Formula .unit} {s s' : List Char} (h : u.chars ++ s = u'.chars ++ s') :
    u.lead = u'.lead := by
  rw [← lead_of_chars u s, h, lead_of_chars]

/-- The source of a part tells the part, and where it ends. -/
def Determined {k : Shape} (F : Formula k) : Prop :=
  ∀ {F' : Formula k} {s s' : List Char}, Stops k s → Stops k s' →
    F.chars ++ s = F'.chars ++ s' → F = F' ∧ s = s'

theorem determined_number (v : { v : Float // IsCount v }) : Determined (number v) := by
  intro F' s s' hs hs' h
  have hlead := lead_congr h
  cases F' with
  | number w =>
    obtain ⟨cs, htext, hcs, -⟩ := numberText_spec v.2
    obtain ⟨ds, htext', hds, -⟩ := numberText_spec w.2
    simp only [chars, htext, htext', String.toList_ofList] at h
    obtain ⟨hsame, hrest⟩ := run_injective hcs.chars hds.chars (fun c hc => (hs.head c hc).1)
      (fun c hc => (hs'.head c hc).1) h
    have hvalue : v.1 = w.1 :=
      numberText_injective v.2 w.2 (htext.trans ((congrArg String.ofList hsame).trans htext'.symm))
    exact ⟨congrArg number (Subtype.ext hvalue), hrest⟩
  | _ => cases hlead

theorem determined_infinite : Determined infinite := by
  intro F' s s' hs hs' h
  have hlead := lead_congr h
  cases F' with
  | infinite => exact ⟨rfl, List.append_cancel_left h⟩
  | _ => cases hlead

theorem determined_pi : Determined pi := by
  intro F' s s' hs hs' h
  have hlead := lead_congr h
  cases F' with
  | pi => exact ⟨rfl, List.append_cancel_left h⟩
  | _ => cases hlead

theorem determined_word (w : { cs : List Char // IsWord cs }) : Determined (word w) := by
  intro F' s s' hs hs' h
  have hlead := lead_congr h
  cases F' with
  | word w' =>
    obtain ⟨hsame, hrest⟩ := run_injective w.2.2 w'.2.2 (fun c hc => (hs.head c hc).2)
      (fun c hc => (hs'.head c hc).2) h
    exact ⟨congrArg word (Subtype.ext hsame), hrest⟩
  | _ => cases hlead

theorem determined_minus {u : Formula .unit} (ih : Determined u) : Determined (minus u) := by
  intro F' s s' hs hs' h
  have hlead := lead_congr h
  cases F' with
  | minus u' =>
    obtain ⟨rfl, hrest⟩ := ih hs hs' (List.cons.inj h).2
    exact ⟨rfl, hrest⟩
  | _ => cases hlead

theorem determined_call (f : Name) {args : Formula .arguments} (ih : Determined args) :
    Determined (call f args) := by
  intro F' s s' hs hs' h
  have hlead := lead_congr h
  cases F' with
  | call f' args' =>
    simp only [chars, List.append_assoc] at h
    obtain ⟨rfl, hargs⟩ := Name.chars_injective h
    obtain ⟨rfl, hrest⟩ := ih (.closing _ _) (.closing _ _) hargs
    exact ⟨rfl, List.append_cancel_left hrest⟩
  | _ => cases hlead

theorem determined_fraction {a b : Formula .sum} (iha : Determined a) (ihb : Determined b) :
    Determined (fraction a b) := by
  intro F' s s' hs hs' h
  have hlead := lead_congr h
  cases F' with
  | fraction a' b' =>
    simp only [chars, List.append_assoc] at h
    obtain ⟨rfl, hbelow⟩ := iha (.brace _) (.brace _) (List.append_cancel_left h)
    obtain ⟨rfl, hrest⟩ :=
      ihb (.brace _) (.brace _) (List.append_cancel_left (List.cons.inj hbelow).2)
    exact ⟨rfl, (List.cons.inj hrest).2⟩
  | _ => cases hlead

theorem determined_power {a b : Formula .sum} (iha : Determined a) (ihb : Determined b) :
    Determined (power a b) := by
  intro F' s s' hs hs' h
  have hlead := lead_congr h
  cases F' with
  | power a' b' =>
    simp only [chars, List.append_assoc] at h
    obtain ⟨rfl, hexponent⟩ := iha (.brace _) (.brace _) (List.append_cancel_left h)
    obtain ⟨rfl, hrest⟩ :=
      ihb (.brace _) (.brace _) (List.append_cancel_left (List.cons.inj hexponent).2)
    exact ⟨rfl, (List.cons.inj hrest).2⟩
  | _ => cases hlead

theorem determined_group {a : Formula .sum} (ih : Determined a) : Determined (group a) := by
  intro F' s s' hs hs' h
  have hlead := lead_congr h
  cases F' with
  | group a' =>
    simp only [chars, List.append_assoc] at h
    obtain ⟨rfl, hrest⟩ := ih (.closing _ _) (.closing _ _) (List.append_cancel_left h)
    exact ⟨rfl, List.append_cancel_left hrest⟩
  | _ => cases hlead

theorem determined_single {u : Formula .unit} (ih : Determined u) : Determined (single u) := by
  intro F' s s' hs hs' h
  cases F' with
  | single u' =>
    obtain ⟨rfl, hrest⟩ := ih hs.product hs'.product h
    exact ⟨rfl, hrest⟩
  | times u' p' =>
    simp only [chars, List.append_assoc] at h
    -- The source goes on with a dot, where a product does not end.
    obtain ⟨-, rfl⟩ := ih hs.product (.dot _) h
    exact absurd hs (Stops.not_dot _)

theorem determined_times {u : Formula .unit} {p : Formula .product} (ihu : Determined u)
    (ihp : Determined p) : Determined (times u p) := by
  intro F' s s' hs hs' h
  cases F' with
  | single u' =>
    simp only [chars, List.append_assoc] at h
    obtain ⟨-, rfl⟩ := ihu (.dot _) hs'.product h
    exact absurd hs' (Stops.not_dot _)
  | times u' p' =>
    simp only [chars, List.append_assoc] at h
    obtain ⟨rfl, hmore⟩ := ihu (.dot _) (.dot _) h
    obtain ⟨rfl, hrest⟩ := ihp hs hs' (List.append_cancel_left hmore)
    exact ⟨rfl, hrest⟩

theorem determined_whole {p : Formula .product} (ih : Determined p) : Determined (whole p) := by
  intro F' s s' hs hs' h
  cases F' with
  | whole p' =>
    obtain ⟨rfl, hrest⟩ := ih hs.sum hs'.sum h
    exact ⟨rfl, hrest⟩
  | join p' subtracts t' =>
    simp only [chars, List.append_assoc] at h
    -- The source goes on with a sign, where a sum does not end.
    obtain ⟨-, rfl⟩ := ih hs.sum (.sign subtracts _) h
    exact absurd hs (Stops.not_sign subtracts _)

theorem determined_join {p : Formula .product} (subtracts : Bool) {t : Formula .sum}
    (ihp : Determined p) (iht : Determined t) : Determined (join p subtracts t) := by
  intro F' s s' hs hs' h
  cases F' with
  | whole p' =>
    simp only [chars, List.append_assoc] at h
    obtain ⟨-, rfl⟩ := ihp (.sign subtracts _) hs'.sum h
    exact absurd hs' (Stops.not_sign subtracts _)
  | join p' subtracts' t' =>
    simp only [chars, List.append_assoc] at h
    obtain ⟨rfl, hmore⟩ := ihp (.sign subtracts _) (.sign subtracts' _) h
    obtain ⟨rfl, hsecond⟩ := signChars_injective hmore
    obtain ⟨rfl, hrest⟩ := iht hs hs' hsecond
    exact ⟨rfl, hrest⟩

theorem determined_one {t : Formula .sum} (ih : Determined t) : Determined (one t) := by
  intro F' s s' hs hs' h
  cases F' with
  | one t' =>
    obtain ⟨rfl, hrest⟩ := ih hs.arguments hs'.arguments h
    exact ⟨rfl, hrest⟩
  | more t' args' =>
    simp only [chars, List.append_assoc] at h
    obtain ⟨-, rfl⟩ := ih hs.arguments (.comma _) h
    exact absurd hs (Stops.not_comma _)

theorem determined_more {t : Formula .sum} {args : Formula .arguments} (iht : Determined t)
    (ih : Determined args) : Determined (more t args) := by
  intro F' s s' hs hs' h
  cases F' with
  | one t' =>
    simp only [chars, List.append_assoc] at h
    obtain ⟨-, rfl⟩ := iht (.comma _) hs'.arguments h
    exact absurd hs' (Stops.not_comma _)
  | more t' args' =>
    simp only [chars, List.append_assoc] at h
    obtain ⟨rfl, hmore⟩ := iht (.comma _) (.comma _) h
    obtain ⟨rfl, hrest⟩ := ih hs hs' (List.append_cancel_left (List.cons.inj hmore).2)
    exact ⟨rfl, hrest⟩

/-- **A part of a formula is determined by its source**, and so is where it ends. -/
theorem determined {k : Shape} (F : Formula k) : Determined F := by
  induction F with
  | number v => exact determined_number v
  | infinite => exact determined_infinite
  | pi => exact determined_pi
  | word w => exact determined_word w
  | minus u ih => exact determined_minus ih
  | call f args ih => exact determined_call f ih
  | fraction a b iha ihb => exact determined_fraction iha ihb
  | power a b iha ihb => exact determined_power iha ihb
  | group a ih => exact determined_group ih
  | single u ih => exact determined_single ih
  | times u p ihu ihp => exact determined_times ihu ihp
  | whole p ih => exact determined_whole ih
  | join p subtracts t ihp iht => exact determined_join subtracts ihp iht
  | one t ih => exact determined_one ih
  | more t args iht ih => exact determined_more iht ih

/-- **A formula is determined by its source.** -/
theorem chars_injective {k : Shape} {F F' : Formula k} (h : F.chars = F'.chars) : F = F' :=
  (F.determined (.nil k) (.nil k) (congrArg (· ++ []) h)).1

end Formula

/-! ## 5. Meaning -/

/-- Operands that are joined one after the other. -/
structure Chain where
  first : Expr
  rest : List (Op × Expr)

namespace Chain

/-- The chain as an expression, grouped to the left. -/
def value (c : Chain) : Expr := c.rest.foldl (fun l x => .bin x.1 l x.2) c.first

/-- One chain joined to another by an operator. -/
def append (c : Chain) (op : Op) (d : Chain) : Chain := ⟨c.first, c.rest ++ (op, d.first) :: d.rest⟩

@[simp] theorem value_singleton (e : Expr) : value ⟨e, []⟩ = e := rfl

theorem value_append (c : Chain) (op : Op) (d : Chain) :
    (c.append op d).value = value ⟨.bin op c.value d.first, d.rest⟩ := by
  simp [value, append, List.foldl_append]

theorem value_append_singleton (c : Chain) (op : Op) (e : Expr) :
    (c.append op ⟨e, []⟩).value = .bin op c.value e := by
  rw [value_append, value_singleton]

end Chain

namespace Formula

/-- What a part stands for. -/
abbrev Meaning : Shape → Type
  | .unit => Expr
  | .product | .sum => Chain
  | .arguments => List Expr

/-- The operator that a sign between two terms stands for. -/
def signOp (subtracts : Bool) : Op := if subtracts then .sub else .add

/-- What a reader sees in a formula: products bind tighter than sums, and operands are joined from
left to right. -/
@[simp] def meaning : {k : Shape} → Formula k → Meaning k
  | _, number v => Expr.num v
  | _, infinite => Expr.num infinity
  | _, pi => Expr.const "pi"
  | _, word w => if w.1 = ['e'] then Expr.const "e" else Expr.var (String.ofList w.1)
  | _, minus u => Expr.neg u.meaning
  | _, call f args => Expr.func f.text args.meaning
  | _, fraction a b => Expr.bin .div a.meaning.value b.meaning.value
  | _, power a b => Expr.bin .pow a.meaning.value b.meaning.value
  | _, group a => a.meaning.value
  | _, single u => ⟨u.meaning, []⟩
  | _, times u p => Chain.append ⟨u.meaning, []⟩ .mul p.meaning
  | _, whole p => ⟨p.meaning.value, []⟩
  | _, join p subtracts t => Chain.append ⟨p.meaning.value, []⟩ (signOp subtracts) t.meaning
  | _, one t => [t.meaning.value]
  | _, more t args => t.meaning.value :: args.meaning

/-- The factors of one product and then those of another. -/
def timesAll : Formula .product → Formula .product → Formula .product
  | single u, q => times u q
  | times u p, q => times u (p.timesAll q)

/-- The terms of one sum and then those of another. -/
def joinAll : Formula .sum → Bool → Formula .sum → Formula .sum
  | whole p, subtracts, t => join p subtracts t
  | join p between s, subtracts, t => join p between (s.joinAll subtracts t)

theorem chars_timesAll (q : Formula .product) :
    ∀ p : Formula .product, (p.timesAll q).chars = p.chars ++ dot ++ q.chars
  | single u => by simp [timesAll]
  | times u p => by simp [timesAll, chars_timesAll q p]

theorem chars_joinAll (subtracts : Bool) (t : Formula .sum) :
    ∀ s : Formula .sum, (s.joinAll subtracts t).chars = s.chars ++ signChars subtracts ++ t.chars
  | whole p => by simp [joinAll]
  | join p between s => by simp [joinAll, chars_joinAll subtracts t s]

theorem meaning_timesAll (q : Formula .product) :
    ∀ p : Formula .product, (p.timesAll q).meaning = p.meaning.append .mul q.meaning
  | single u => by simp [timesAll]
  | times u p => by simp [timesAll, meaning_timesAll q p, Chain.append]

theorem meaning_joinAll (subtracts : Bool) (t : Formula .sum) :
    ∀ s : Formula .sum,
      (s.joinAll subtracts t).meaning = s.meaning.append (signOp subtracts) t.meaning
  | whole p => by simp [joinAll]
  | join p between s => by simp [joinAll, meaning_joinAll subtracts t s, Chain.append]

/-- Everything in a product is multiplied. -/
theorem op_of_mem_product : ∀ p : Formula .product, ∀ x ∈ p.meaning.rest, x.1 = .mul
  | single u => nofun
  | times u p => by
    intro x hx
    rcases List.mem_cons.mp hx with rfl | hx
    · rfl
    · exact op_of_mem_product p x hx

end Formula

end Latex

end Fluxion
