import ExprTranslate.Grammar.Basic
import ExprTranslate.Text.Blank
/-!
# The EBNF description of expressions

`description` states the language of the expression grammar in extended
Backus–Naur form: a production is `name = expression .`; an expression is a
list of alternatives separated by `|`, an alternative a sequence of terms, and
a term a name, a token in quotes, a range `"a" … "z"` of single characters, or
an expression in parentheses (a group), brackets (an option) or braces (a
repetition). Productions with lower-case names are lexical.

`check` reads the description and verifies it: every name used has a
production, every production is reachable from the start symbol `Expr`, a
lexical production refers to lexical ones only, and a range goes upwards
between single characters.
-/

namespace ExprTranslate.Ebnf

/-- An expression of the notation. -/
inductive Expr
  | name (n : String)
  | token (t : String)
  | range (lo hi : String)
  | group (e : Expr)
  | option (e : Expr)
  | repetition (e : Expr)
  | sequence (es : List Expr)
  | alternative (es : List Expr)
  | empty
  deriving Repr, Inhabited

/-- A named production. -/
structure Production where
  name : String
  body : Expr
  deriving Repr, Inhabited

/-- A lexeme of the notation: a name, a quoted text, or a single mark. -/
inductive Lexeme
  | ident (s : String)
  | quoted (s : String)
  | mark (c : Char)
  deriving DecidableEq, Repr

/-- The character between the ends of a range. -/
def ellipsis : Char := '…'

/-- Whether a character starts a name. -/
def isNameStart (c : Char) : Bool := c.isAlpha || c = '_'

/-- Whether a character continues a name. -/
def isNamePart (c : Char) : Bool := c.isAlphanum || c = '_'

/-- The body of a quoted text up to its closing `q`, and what follows; a backslash takes the
next character as it is. -/
def quotedBody (q : Char) : List Char → List Char → Option (List Char × List Char)
  | [], _ => none
  | '\\' :: c :: cs, acc => if q = '"' then quotedBody q cs (c :: acc) else quotedBody q (c :: cs) ('\\' :: acc)
  | c :: cs, acc => if c = q then some (acc.reverse, cs) else quotedBody q cs (c :: acc)

/-- The lexemes of a text. -/
def lexemes : Nat → List Char → Except String (List Lexeme)
  | _, [] => .ok []
  | 0, _ => .error "text too long"
  | fuel + 1, c :: cs =>
    if Text.isBlank c then lexemes fuel cs
    else if c = '"' ∨ c.toNat = 0x60 then
      match quotedBody c cs [] with
      | some (body, rest) => (Lexeme.quoted (String.ofList body) :: ·) <$> lexemes fuel rest
      | none => .error "literal not terminated"
    else if isNameStart c then
      (Lexeme.ident (String.ofList (c :: cs.takeWhile isNamePart)) :: ·) <$>
        lexemes fuel (cs.dropWhile isNamePart)
    else (Lexeme.mark c :: ·) <$> lexemes fuel cs

/-- The description of a lexeme in messages. -/
def Lexeme.describe : Lexeme → String
  | .ident s => s
  | .quoted s => "\"" ++ s ++ "\""
  | .mark c => "'" ++ c.toString ++ "'"

/-- A list of expressions as one: nothing, the expression itself, or the combination. -/
def combine (wrap : List Expr → Expr) : List Expr → Expr
  | [] => .empty
  | [e] => e
  | es => wrap es

mutual

/-- A term and what follows it, or `none` if the lexemes do not start with a term. -/
def term : Nat → List Lexeme → Except String (Option (Expr × List Lexeme))
  | 0, _ => .error "expression too deep"
  | fuel + 1, ls =>
    match ls with
    | .ident n :: rest => .ok (some (.name n, rest))
    | .quoted t :: .mark c :: .quoted u :: rest =>
      if c = ellipsis then .ok (some (.range t u, rest)) else .ok (some (.token t, .mark c :: .quoted u :: rest))
    | .quoted t :: rest => .ok (some (.token t, rest))
    | .mark '(' :: rest => enclosed fuel ')' .group rest
    | .mark '[' :: rest => enclosed fuel ']' .option rest
    | .mark '{' :: rest => enclosed fuel '}' .repetition rest
    | _ => .ok none

/-- An expression closed by `close`, wrapped. -/
def enclosed : Nat → Char → (Expr → Expr) → List Lexeme →
    Except String (Option (Expr × List Lexeme))
  | 0, _, _, _ => .error "expression too deep"
  | fuel + 1, close, wrap, ls => do
    let (e, rest) ← expression fuel ls
    match rest with
    | .mark c :: rest' =>
      if c = close then .ok (some (wrap e, rest')) else .error ("expected '" ++ close.toString ++ "'")
    | _ => .error ("expected '" ++ close.toString ++ "'")

/-- The terms of a sequence after those in `acc` (last first). -/
def sequence : Nat → List Lexeme → List Expr → Except String (Expr × List Lexeme)
  | 0, _, _ => .error "expression too deep"
  | fuel + 1, ls, acc => do
    match ← term fuel ls with
    | some (e, rest) => sequence fuel rest (e :: acc)
    | none =>
      if acc.isEmpty then
        .error ("expected term, found " ++ ((ls.head?.map Lexeme.describe).getD "end of text"))
      else .ok (combine .sequence acc.reverse, ls)

/-- The alternatives of an expression after those in `acc` (last first). -/
def alternatives : Nat → List Lexeme → List Expr → Except String (Expr × List Lexeme)
  | 0, _, _ => .error "expression too deep"
  | fuel + 1, ls, acc => do
    let (e, rest) ← sequence fuel ls []
    match rest with
    | .mark '|' :: rest' => alternatives fuel rest' (e :: acc)
    | _ => .ok (combine .alternative (e :: acc).reverse, rest)

/-- An expression and what follows it. -/
def expression : Nat → List Lexeme → Except String (Expr × List Lexeme)
  | 0, _ => .error "expression too deep"
  | fuel + 1, ls => alternatives fuel ls []

end

/-- The productions of a list of lexemes; `depth` bounds the nesting of each expression. -/
def productions (depth : Nat) : Nat → List Lexeme → Except String (List Production)
  | _, [] => .ok []
  | 0, _ => .error "too many productions"
  | fuel + 1, .ident n :: .mark '=' :: rest => do
    let (body, rest') ← match rest with
      | .mark '.' :: _ => pure (Expr.empty, rest)
      | _ => expression depth rest
    match rest' with
    | .mark '.' :: more => (⟨n, body⟩ :: ·) <$> productions depth fuel more
    | _ => .error ("expected '.' after production " ++ n)
  | _, l :: _ => .error ("expected production, found " ++ l.describe)

/-- The first name that two productions share. -/
def firstRepeated : List String → List String → Option String
  | _, [] => none
  | seen, n :: ns => if seen.contains n then some n else firstRepeated (n :: seen) ns

/-- Reads a description. -/
def parse (text : String) : Except String (List Production) := do
  let ls ← lexemes text.length text.toList
  let g ← productions (4 * ls.length + 4) ls.length ls
  match firstRepeated [] (g.map (·.name)) with
  | some n => .error (n ++ " declared already")
  | none => .ok g

/-- The names an expression refers to, in order. -/
def Expr.names : Expr → List String
  | .name n => [n]
  | .token _ | .range _ _ | .empty => []
  | .group e | .option e | .repetition e => e.names
  | .sequence es | .alternative es => namesOf es
where
  /-- The names the expressions of a list refer to. -/
  namesOf : List Expr → List String
    | [] => []
    | e :: es => e.names ++ namesOf es

/-- The ranges of an expression, as pairs of ends. -/
def Expr.ranges : Expr → List (String × String)
  | .range lo hi => [(lo, hi)]
  | .name _ | .token _ | .empty => []
  | .group e | .option e | .repetition e => e.ranges
  | .sequence es | .alternative es => rangesOf es
where
  /-- The ranges of the expressions of a list. -/
  rangesOf : List Expr → List (String × String)
    | [] => []
    | e :: es => e.ranges ++ rangesOf es

/-- Whether a production name is lexical: it starts with a lower-case letter. -/
def isLexical (n : String) : Bool :=
  match n.toList with
  | c :: _ => c.isLower
  | [] => false

/-- The production with a name. -/
def lookup (g : List Production) (n : String) : Option Production := g.find? (·.name == n)

/-- The names reachable from those in `reached` in `fuel` rounds. -/
def reach (g : List Production) : Nat → List String → List String
  | 0, reached => reached
  | fuel + 1, reached =>
    let next := reached.flatMap fun n => ((lookup g n).map (·.body.names)).getD []
    let fresh := (next.filter (!reached.contains ·)).eraseDups
    if fresh.isEmpty then reached else reach g fuel (reached ++ fresh)

/-- The problems of one production reached: missing names, lexical productions referring to
others, and ranges that are not upward between single characters. -/
def Production.problems (g : List Production) (p : Production) : List String :=
  let names := p.body.names
  let missing := (names.filter fun n => (lookup g n).isNone).map ("missing production " ++ ·)
  let nonLexical :=
    if isLexical p.name then
      (names.filter (!isLexical ·)).map ("reference to non-lexical production " ++ ·)
    else []
  let ranges := p.body.ranges.flatMap fun (lo, hi) =>
    match lo.toList, hi.toList with
    | [a], [b] => if a < b then [] else ["decreasing character range"]
    | [_], _ => ["single char expected, found " ++ hi]
    | _, _ => ["single char expected, found " ++ lo]
  missing ++ nonLexical ++ ranges

/-- Verifies a description from a start production. -/
def verify (g : List Production) (start : String) : Except String Unit :=
  match lookup g start with
  | none => .error ("no start production " ++ start)
  | some _ =>
    let reached := reach g g.length [start]
    let problems :=
      ((g.filter fun p => reached.contains p.name).flatMap (·.problems g)) ++
      ((g.filter fun p => !reached.contains p.name).map (·.name ++ " is unreachable"))
    match problems with
    | [] => .ok ()
    | [e] => .error e
    | e :: es => .error (e ++ " (and " ++ toString es.length ++ " more errors)")

/-- The language of the expression grammar, in EBNF. Input is lower-cased before it is
scanned, so letters are lower-case. -/
def description : String :=
  "\nExpr       = [ AddOp ] Term { AddOp Term } .\n" ++
  "Term       = Factor { MulOp Factor } .\n" ++
  "Factor     = identifier | number | \"(\" Expr \")\" .\n" ++
  "AddOp      = \"+\" | \"-\" .\n" ++
  "MulOp      = \"*\" | \"/\" .\n" ++
  "identifier = letter { letter | digit } .\n" ++
  "number     = digit { digit } .\n" ++
  "letter     = \"a\" … \"z\" .\n" ++
  "digit      = \"0\" … \"9\" .\n"

/-- Reads and verifies the description from `Expr`. -/
def check : Except String (List Production) :=
  match parse description with
  | .error e => .error ("cannot parse EBNF: " ++ e)
  | .ok g =>
    match verify g Kind.expr.name with
    | .error e => .error ("EBNF does not verify: " ++ e)
    | .ok () => .ok g

/-- The names of a description's productions, in byte order. -/
def names (g : List Production) : List String := (g.map (·.name)).mergeSort (· ≤ ·)

end ExprTranslate.Ebnf
