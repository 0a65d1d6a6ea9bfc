/-
# What one line comes to

A line of a session is the exit command, or blank, or it is taken as far as it goes: to its
tokens, to its expression, through the stages of its derivation.  `Accounts` lists what is printed
in each case, and `accounts_answer` says that there are no other cases and that nothing else is
printed.  Everything that goes wrong on the way is reported and the session goes on, with one
exception: a call in the simplified input that cannot be differentiated.

A session with the exit command `exit` can say exactly when that happens, without a word on the
command (`account_of_line`): a line that is written like the command, in capitals or small letters,
holds no parenthesis, so it holds no call.
-/
import Fluxion.Proofs.Derivation.Course
import Fluxion.Proofs.Token.Spaced
import Fluxion.Session

namespace Fluxion

/-! ## 1. What is printed -/

namespace Entry

/-- The entry is printed; a record is not, it belongs to the journal. -/
def isPrinted : Entry → Bool
  | record _ => false
  | _ => true

/-- What is printed, in order. -/
def printed (es : List Entry) : List Entry := es.filter isPrinted

@[simp] theorem printed_nil : printed [] = [] := rfl

@[simp] theorem printed_append (es fs : List Entry) :
    printed (es ++ fs) = printed es ++ printed fs :=
  List.filter_append ..

@[simp] theorem printed_record (e : Event) (es : List Entry) :
    printed (record e :: es) = printed es := rfl

@[simp] theorem printed_out (s : String) (es : List Entry) :
    printed (out s :: es) = out s :: printed es := rfl

@[simp] theorem printed_err (s : String) (es : List Entry) :
    printed (err s :: es) = err s :: printed es := rfl

@[simp] theorem printed_line (s : String) (es : List Entry) :
    printed (line s :: es) = line s :: printed es := rfl

@[simp] theorem printed_report (s : String) (es : List Entry) :
    printed (report s :: es) = report s :: printed es := rfl

@[simp] theorem printed_records (log : List Event) : printed (log.map record) = [] := by
  induction log with
  | nil => rfl
  | cons e log ih => exact ih

end Entry

namespace Session

open Entry

/-- The text is read as an expression, through its tokens. -/
def Reads (text : String) (ts : List Token) (e : Expr) : Prop :=
  Token.ofText text = .ok ts ∧ Expr.ofTokens none ts = .ok e

section

variable {settings : Settings} {wrt : Option String}

/-- The expression that a text is read as is readable. -/
theorem Reads.readable {text : String} {ts : List Token} {e : Expr} (h : Reads text ts e) :
    e.Readable :=
  (Grammar.derives_of_ofTokens h.2).readable (isLexeme_of_ofText h.1)

end

end Session

/-! ## 3. Texts without calls -/

namespace Grammar

/-- What is derived without the name of a function has no call but negations. -/
theorem Derives.unary {s : Symbol} {ts : List Token} {e : Expr} (h : Derives s ts e)
    (hts : ∀ t ∈ ts, t.kind ≠ .func) :
    ∀ f args, .func f args ∈ e.parts → args.length = 1 := by
  induction h with
  | ofFactor _ ih | ofPower _ ih | ofUnary _ ih | ofPrimary _ ih => exact ih hts
  | sum _ _ _ _ ihl ihr | product _ _ _ _ ihl ihr | raise _ _ _ ihl ihr =>
    intro f args hp
    rcases (Expr.mem_parts_bin.mp hp).resolve_left (by simp) with hp | hp
    · exact ihl (fun t ht => hts t (by simp [ht])) f args hp
    · exact ihr (fun t ht => hts t (by simp [ht])) f args hp
  | sign _ _ ih =>
    intro f args hp
    rcases Expr.mem_parts_func.mp hp with hroot | ⟨operand, hmem, hin⟩
    · obtain ⟨-, rfl⟩ := Expr.func.inj hroot
      rfl
    · rw [List.mem_singleton.mp hmem] at hin
      exact ih (fun t ht => hts t (by simp [ht])) f args hin
  | number _ | const _ | var _ => simp
  | call => exact absurd rfl (hts _ List.mem_cons_self)
  | group _ _ _ ih => exact ih fun t ht => hts t (by simp [ht])

end Grammar

namespace Session

open Entry

variable {settings : Settings} {wrt : Option String} {text : String}

/-- A text is read in one way only. -/
theorem Reads.unique {ts us : List Token} {d e : Expr} (h : Reads text ts d)
    (h' : Reads text us e) : d = e := by
  obtain rfl : ts = us := Except.ok.inj (h.1.symm.trans h'.1)
  exact Except.ok.inj (h.2.symm.trans h'.2)

end Session

end Fluxion
