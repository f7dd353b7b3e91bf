import ExprTranslate.Grammar.Basic
/-!
# Nullable, FIRST and FOLLOW

For each non-terminal of a grammar: whether it derives the empty string, the
terminals that begin the strings it derives (FIRST), and the terminals that
may follow it in a sentential form of the start symbol, with `endOfInput`
after the start symbol (FOLLOW). They are the least solution of the usual
equations, found by applying the rules in order until nothing changes.

`firstOfSeq` gives FIRST of a sequence of grammar symbols and whether the
whole sequence is nullable; action symbols and `ε` are skipped. Sets of
terminals are lists sorted by symbol number.
-/

namespace ExprTranslate

/-- A set of terminals: sorted by number, without repetition. -/
abbrev SymSet := List Symbol

namespace SymSet

/-- Adds a terminal, keeping the order. -/
def insert (s : Symbol) : SymSet → SymSet
  | [] => [s]
  | t :: ts =>
    if s.code < t.code then s :: t :: ts
    else if s.code = t.code then t :: ts
    else t :: insert s ts

/-- The union of two sets. -/
def union (a b : SymSet) : SymSet := b.foldl (fun acc s => insert s acc) a

end SymSet

/-- Nullable, FIRST and FOLLOW of one non-terminal. -/
structure KindInfo where
  nullable : Bool := false
  first : SymSet := []
  follow : SymSet := []
  deriving DecidableEq, Repr, Inhabited

/-- The analysis of a grammar: the information of each kind, by kind number. -/
structure Analysis where
  grammar : Grammar
  info : Array KindInfo
  deriving Inhabited

/-- No information yet: nothing nullable, all sets empty. -/
def Analysis.blank : Array KindInfo := Array.replicate 8 {}

/-- The information of a kind. -/
def infoOf (info : Array KindInfo) (k : Kind) : KindInfo := info[k.code]?.getD {}

/-- FIRST of a sequence of grammar symbols, added to `acc`, and whether it is nullable. -/
def firstOfSeqWith (info : Array KindInfo) (acc : SymSet) : List GSym → SymSet × Bool
  | [] => (acc, true)
  | .action _ :: rest => firstOfSeqWith info acc rest
  | .terminal s :: rest =>
    if s = .empty then firstOfSeqWith info acc rest else (acc.insert s, false)
  | .nonterminal k :: rest =>
    let acc := acc.union (infoOf info k).first
    if (infoOf info k).nullable then firstOfSeqWith info acc rest else (acc, false)

/-- One pass of the FIRST rules over the productions in order: whether anything changed. -/
def firstPass (rules : List Production) (info : Array KindInfo) : Array KindInfo × Bool :=
  rules.foldl (fun (info, changed) p =>
    let (set, nullable) := firstOfSeqWith info [] p.rhs
    let old := infoOf info p.lhs
    let first := old.first.union set
    let grows := first.length != old.first.length
    let becomesNullable := nullable && !old.nullable
    let new := { old with first, nullable := old.nullable || nullable }
    (info.modify p.lhs.code (fun _ => new), changed || grows || becomesNullable)) (info, false)

/-- One pass of the FOLLOW rules over the productions in order. -/
def followPass (rules : List Production) (info : Array KindInfo) : Array KindInfo × Bool :=
  rules.foldl (fun (info, changed) p =>
    let rec walk : List GSym → Array KindInfo × Bool → Array KindInfo × Bool
      | [], st => st
      | .nonterminal k :: rest, (info, changed) =>
        let old := infoOf info k
        let (set, nullable) := firstOfSeqWith info [] rest
        let follow := old.follow.union set
        let follow := if nullable then follow.union (infoOf info p.lhs).follow else follow
        let info := info.modify k.code (fun _ => { old with follow })
        walk rest (info, changed || follow.length != old.follow.length)
      | _ :: rest, st => walk rest st
    walk p.rhs (info, changed)) (info, false)

/-- Repeats a pass until it changes nothing, at most `fuel` times. -/
def saturate (pass : Array KindInfo → Array KindInfo × Bool) :
    Nat → Array KindInfo → Array KindInfo
  | 0, info => info
  | fuel + 1, info =>
    let (info, changed) := pass info
    if changed then saturate pass fuel info else info

/-- How many symbols the right-hand sides of some productions hold. -/
def rhsSize : List Production → Nat
  | [] => 0
  | p :: ps => p.rhs.length + rhsSize ps

/-- How many symbols the right-hand sides of a grammar hold. -/
def Grammar.size (g : Grammar) : Nat := rhsSize g.rules

/-- Passes enough for a grammar: each pass that changes something adds a terminal of a
right-hand side, or the end marker, to one of eight sets, or makes one of eight kinds
nullable. -/
def Grammar.passBound (g : Grammar) : Nat := 8 * g.size + 9

/-- The analysis of a grammar. -/
def Grammar.analyze (g : Grammar) : Analysis :=
  let info := saturate (firstPass g.rules) g.passBound Analysis.blank
  let start := infoOf info g.start
  let info := info.modify g.start.code (fun _ => { start with follow := start.follow.insert .endOfInput })
  ⟨g, saturate (followPass g.rules) g.passBound info⟩

/-! ### Kinds by number

The sets are kept in eight slots, one a kind. Analysing a grammar as the builder returns it reads
the slot of each kind number as the first pass over the FIRST rules meets it: the numbers of a
right-hand side as far as it is nullable so far, then the number of the left-hand side. The
first number outside 0 to 7 that it reads stops the analysis. -/

/-- Reading a kind number outside the eight slots. -/
structure KindOutOfRange where
  code : Int

/-- The message of reading slot `code` of eight. -/
def KindOutOfRange.message (e : KindOutOfRange) : String :=
  if e.code < 0 then "runtime error: index out of range [" ++ toString e.code ++ "]"
  else "runtime error: index out of range [" ++ toString e.code ++ "] with length 8"

/-- Reads a right-hand side as the first FIRST pass does, given the kinds found nullable so far:
the first number outside 0 to 7 it reads, or else whether the side is nullable. -/
def scanKinds (nullable : List Kind) : List SymSpec → Except Int Bool
  | [] => .ok true
  | .terminal s :: rest => if s = .empty then scanKinds nullable rest else .ok false
  | .nonterminal c :: rest =>
    match Kind.ofCode? c with
    | none => .error c
    | some k => if nullable.contains k then scanKinds nullable rest else .ok false

/-- The first number outside 0 to 7 that the first FIRST pass reads over the rules, given the
kinds found nullable so far. -/
def strayKind (nullable : List Kind) : List RawProduction → Option Int
  | [] => none
  | p :: ps =>
    match scanKinds nullable p.rhs with
    | .error c => some c
    | .ok rhsNullable =>
      match Kind.ofCode? p.lhs with
      | none => some p.lhs
      | some k => strayKind (if rhsNullable then k :: nullable else nullable) ps

/-- The analysis of a grammar as the builder returns it, or the first kind number outside 0 to 7
that analysing it reads. -/
def RawGrammar.analyze (g : RawGrammar) : Except KindOutOfRange Analysis :=
  match g.kinds? with
  | some tg => .ok tg.analyze
  | none => .error ⟨(strayKind [] g.rules).getD g.start⟩

namespace Analysis

/-- Whether a kind derives the empty string. -/
def nullable (a : Analysis) (k : Kind) : Bool := (infoOf a.info k).nullable

/-- FIRST of a kind. -/
def first (a : Analysis) (k : Kind) : SymSet := (infoOf a.info k).first

/-- FOLLOW of a kind. -/
def follow (a : Analysis) (k : Kind) : SymSet := (infoOf a.info k).follow

/-- FIRST of a sequence of grammar symbols and whether it is nullable. -/
def firstOfSeq (a : Analysis) (seq : List GSym) : SymSet × Bool := firstOfSeqWith a.info [] seq

end Analysis

end ExprTranslate
