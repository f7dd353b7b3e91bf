import ExprTranslate.Code.Basic
import ExprTranslate.Arith
/-!
# Running three-address code

A machine runs instructions in order over a memory of bound names and
temporaries. The value of a place is: a numeral's value; else the value of
the temporary, or else of the bound name, with that name; else `1` for a
name that is not a temporary. A temporary without a value is an error.

An instruction evaluates its left operand, then its right one, then applies
its operator (`+ - * /`, anything else is an error), checks that its
destination is a temporary, and that this temporary has no value yet.
-/

namespace ExprTranslate

/-- Why a place has no value or an instruction cannot run. -/
inductive Fault
  | numeral (text : String) (e : Double.ReadError)
  | unbound (place : String)
  | unknownOperator
  | notTemporary
  | assignedTwice (dest : String)

/-- The message of a fault. -/
def Fault.message : Fault → String
  | .numeral t e => "numeral " ++ t ++ ": " ++ e.message t
  | .unbound p => "unbound place " ++ Text.quote p
  | .unknownOperator => "unknown operator"
  | .notTemporary => "destination is not a temporary"
  | .assignedTwice d => "temporary " ++ d ++ " assigned twice"

/-- A failed instruction: its number (from 1), the instruction, and the fault. -/
structure RunError where
  index : Nat
  instr : Instr
  fault : Fault

/-- The message of a failed run. -/
def RunError.message (e : RunError) : String :=
  "instruction " ++ toString e.index ++ " (" ++ e.instr.render ++ "): " ++ e.fault.message

/-- The memory of a machine: bound names, and temporaries in the order they got values. -/
structure Memory (α : Type) where
  globals : Bindings α
  temps : List (String × α) := []

variable {α : Type}

namespace Memory

/-- The value of a place. -/
def value (A : Arith α) (m : Memory α) (p : String) : Except Fault α :=
  if isNumeral p then
    match A.numeral p with
    | .ok v => .ok v
    | .error e => .error (.numeral p e)
  else
    match (m.temps.find? (·.1 == p)).map (·.2) with
    | some v => .ok v
    | none =>
      match m.globals.lookup p with
      | some v => .ok v
      | none => if isTemporary p then .error (.unbound p) else .ok A.one

/-- The operation an operator stands for. -/
def operation (A : Arith α) : Char → Option (α → α → α)
  | '+' => some A.add
  | '-' => some A.sub
  | '*' => some A.mul
  | '/' => some A.div
  | _ => none

/-- Runs one instruction. -/
def exec (A : Arith α) (m : Memory α) (i : Instr) : Except Fault (Memory α) :=
  match m.value A i.left with
  | .error f => .error f
  | .ok l =>
    match m.value A i.right with
    | .error f => .error f
    | .ok r =>
      match operation A i.op with
      | none => .error .unknownOperator
      | some f =>
        if !isTemporary i.dest then .error .notTemporary
        else if (m.temps.find? (·.1 == i.dest)).isSome then .error (.assignedTwice i.dest)
        else .ok { m with temps := m.temps ++ [(i.dest, f l r)] }

/-- Runs instructions from number `n` on, stopping at the first that fails; the memory is the
one the run reached. -/
def runFrom (A : Arith α) (n : Nat) (m : Memory α) : List Instr → Memory α × Option RunError
  | [] => (m, none)
  | i :: is =>
    match m.exec A i with
    | .ok m' => runFrom A (n + 1) m' is
    | .error f => (m, some ⟨n, i, f⟩)

/-- Runs a code sequence from its first instruction. -/
def run (A : Arith α) (m : Memory α) (code : List Instr) : Memory α × Option RunError :=
  runFrom A 1 m code

end Memory

/-- The memory a machine starts with, holding the bound names; none if a name is empty, as no
tag can be defined for it and the machine cannot start. -/
def Memory.start (bindings : Bindings α) : Option (Memory α) :=
  if bindings.any (·.1.isEmpty) then none else some { globals := bindings }

/-- What the program reports when a machine cannot start: it follows a tag that was never
made. -/
def missingTag : String := "runtime error: invalid memory address or nil pointer dereference"

/-- Why code has no value at a place: the machine does not start, a run fails, or the place has
no value after it. -/
inductive EvalError
  | start
  | run (e : RunError)
  | place (f : Fault)

/-- The message of an evaluation error. -/
def EvalError.message : EvalError → String
  | .start => missingTag
  | .run e => e.message
  | .place f => f.message

/-- The value of a place after running code on a started machine. -/
def Memory.eval (A : Arith α) (m : Memory α) (code : List Instr) (place : String) :
    Except EvalError α :=
  match Memory.run A m code with
  | (_, some e) => .error (.run e)
  | (m, none) =>
    match m.value A place with
    | .ok v => .ok v
    | .error f => .error (.place f)

/-- The value of a place after running code on a fresh machine with some bound names. -/
def eval (A : Arith α) (code : List Instr) (place : String) (bindings : Bindings α) :
    Except EvalError α :=
  match Memory.start bindings with
  | none => .error .start
  | some m => m.eval A code place

end ExprTranslate
