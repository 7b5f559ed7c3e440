/-!
# Rules in BNF

The right-hand side of a rule, and the two kinds of rules: in a strict one the members of a
sequence are adjacent, in a loose one white space may separate them.
-/

namespace Peg.Bnf

inductive Body
  | name (name : String)
  | lit (text : String)
  | opt (b : Body)
  | plus (b : Body)
  | conj (members : List Body)
  | disj (members : List Body)

namespace Body

/-! ## Equality -/

mutual

def beq : Body → Body → Bool
  | name m, name n => m == n
  | lit s, lit t => s == t
  | opt a, opt b => a.beq b
  | plus a, plus b => a.beq b
  | conj as, conj bs => beqList as bs
  | disj as, disj bs => beqList as bs
  | _, _ => false

def beqList : List Body → List Body → Bool
  | [], [] => true
  | a :: as, b :: bs => a.beq b && beqList as bs
  | _, _ => false

end

mutual

theorem beq_iff : ∀ a b : Body, a.beq b = true ↔ a = b
  | name _, b => by cases b <;> simp [beq]
  | lit _, b => by cases b <;> simp [beq]
  | opt a, b => by cases b <;> simp [beq, beq_iff a]
  | plus a, b => by cases b <;> simp [beq, beq_iff a]
  | conj as, b => by cases b <;> simp [beq, beqList_iff as]
  | disj as, b => by cases b <;> simp [beq, beqList_iff as]

theorem beqList_iff : ∀ as bs : List Body, beqList as bs = true ↔ as = bs
  | [], bs => by cases bs <;> simp [beqList]
  | a :: as, bs => by cases bs <;> simp [beqList, beq_iff a, beqList_iff as]

end

instance : DecidableEq Body := fun a b => decidable_of_iff _ (beq_iff a b)

/-! ## Kinds of bodies -/

/-- Bodies that can be repeated without braces. -/
def isPrimary : Body → Bool
  | name _ | lit _ | opt _ => true
  | _ => false

def isConj : Body → Bool
  | conj _ => true
  | _ => false

def isDisj : Body → Bool
  | disj _ => true
  | _ => false

end Body

inductive Mode
  | strict
  | loose
  deriving DecidableEq, Repr

structure Definition where
  body : Body
  mode : Mode
  deriving DecidableEq

end Peg.Bnf
