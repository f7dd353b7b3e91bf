import ExprTranslate.Text.Quoted
/-!
# Flags

A flag has a long name, perhaps a one-letter short name, and a kind: a
switch, a text, or a list of texts. The arguments are read left to right:

* `--` ends the flags; everything after it is an argument;
* `--name=value` sets a flag, `--name` sets a switch to true or takes the
  next argument as the value of any other flag;
* `-x` is a cluster of short names: a switch takes no value, another flag
  takes the rest of the cluster (after an optional `=`) or else the next
  argument;
* anything else, `-` included, is an argument.

A switch reads `1 t T TRUE true True` as true and `0 f F FALSE false False`
as false. A list of texts reads its value as one record of comma separated
fields, where a field in double quotes may hold commas, doubled quotes and
line breaks; a list given again is extended.
-/

namespace ExprTranslate.Cli

/-- What a flag holds. -/
inductive FlagKind
  | switch
  | text
  | texts
  deriving DecidableEq, Repr

/-- A flag: its names, kind, description and the text of its default. -/
structure Flag where
  name : String
  short : Option Char := none
  kind : FlagKind
  usage : String
  default : String
  deriving Repr

/-- The value of a flag that was given. -/
inductive FlagValue
  | switch (b : Bool)
  | text (s : String)
  | texts (ss : List String)
  deriving Repr, Inhabited

/-- The flags given, by name, and the arguments that are no flags, in order. -/
structure Parsed where
  values : List (String × FlagValue) := []
  args : List String := []
  deriving Inhabited

namespace Parsed

/-- The value of a flag, if it was given. -/
def value? (p : Parsed) (name : String) : Option FlagValue := (p.values.find? (·.1 == name)).map (·.2)

/-- Whether a flag was given. -/
def changed (p : Parsed) (name : String) : Bool := (p.value? name).isSome

/-- The value of a switch, false if not given. -/
def switch (p : Parsed) (name : String) : Bool :=
  match p.value? name with
  | some (.switch b) => b
  | _ => false

/-- The value of a text flag, or its default. -/
def text (p : Parsed) (name : String) (default : String := "") : String :=
  match p.value? name with
  | some (.text s) => s
  | _ => default

/-- The value of a list flag, empty if not given. -/
def texts (p : Parsed) (name : String) : List String :=
  match p.value? name with
  | some (.texts ss) => ss
  | _ => []

end Parsed

/-- The truth value a switch reads from a text. -/
def readBool (s : String) : Option Bool :=
  if ["1", "t", "T", "TRUE", "true", "True"].contains s then some true
  else if ["0", "f", "F", "FALSE", "false", "False"].contains s then some false
  else none

/-! ## Records of comma separated fields -/

/-- Why a record cannot be read: there is none, a quote stands inside a field without quotes,
or a quoted field has a quote that neither doubles nor closes it (or is never closed). The
faults carry the number of the line the record starts on, and the line and the column (in
bytes) of the fault. -/
inductive RecordError
  | noRecord
  | bareQuote (start line col : Nat)
  | strayQuote (start line col : Nat)

/-- Where a fault of a record stands, naming the record's first line if the fault is on
another. -/
def faultPlace (start line col : Nat) : String :=
  (if start ≠ line then "record on line " ++ toString start ++ "; " else "") ++
    "parse error on line " ++ toString line ++ ", column " ++ toString col ++ ": "

/-- The message of a record error. -/
def RecordError.message : RecordError → String
  | .noRecord => "EOF"
  | .bareQuote s l c => faultPlace s l c ++ "bare \" in non-quoted-field"
  | .strayQuote s l c => faultPlace s l c ++ "extraneous or missing \" in quoted-field"

/-- The bytes a list of characters takes in UTF-8. -/
def byteLength : List Char → Nat
  | [] => 0
  | c :: cs => c.utf8Size + byteLength cs

/-- Characters without a carriage return at their end; `acc` holds them last first. -/
def withoutReturn (acc : List Char) : List Char :=
  match acc with
  | '\r' :: rest => rest.reverse
  | _ => acc.reverse

/-- The lines of a text as records are read from it, each with its line feed; a carriage
return before a line feed, or at the very end, is dropped. `acc` holds the characters of the
current line, last first. -/
def recordLines : List Char → List Char → List (List Char)
  | [], [] => []
  | [], acc => [withoutReturn acc]
  | c :: cs, acc =>
    if c = '\n' then (withoutReturn acc ++ ['\n']) :: recordLines cs [] else recordLines cs (c :: acc)

/-- Whether a line holds nothing but its line feed. -/
def isBlankLine (line : List Char) : Bool := line.isEmpty || line == ['\n']

/-- Where the reader of a record stands: the rest of the current line, its number, the column
reached (in bytes), and the lines after it. -/
structure Cursor where
  line : List Char
  lineNo : Nat
  col : Nat
  rest : List (List Char)

/-- Reads the rest of a quoted field, `acc` holding what was read of it (last first), up to its
closing quote; a field may go on over several lines. The field ends with the record, or with a
comma, given the cursor after it. A field the text ends in is an error at the end of its last
line that is not empty (a last line is empty when it held only a carriage return). -/
def quotedField (start : Nat) : Nat → Cursor → List Char → Except RecordError (String × Option Cursor)
  | 0, _, acc => .ok (String.ofList acc.reverse, none)
  | fuel + 1, cur, acc =>
    match cur.line.findIdx? (· == '"') with
    | some i =>
      let acc := (cur.line.take i).reverse ++ acc
      let col := cur.col + byteLength (cur.line.take i) + 1
      match cur.line.drop (i + 1) with
      | '"' :: more => quotedField start fuel { cur with line := more, col := col + 1 } ('"' :: acc)
      | ',' :: more => .ok (String.ofList acc.reverse, some { cur with line := more, col := col + 1 })
      | after =>
        if isBlankLine after then .ok (String.ofList acc.reverse, none)
        else .error (.strayQuote start cur.lineNo (col - 1))
    | none =>
      if cur.line.isEmpty then .error (.strayQuote start cur.lineNo cur.col)
      else
        let acc := cur.line.reverse ++ acc
        match cur.rest with
        | next :: more =>
          if next.isEmpty then .error (.strayQuote start cur.lineNo (cur.col + byteLength cur.line))
          else quotedField start fuel ⟨next, cur.lineNo + 1, 1, more⟩ acc
        | [] => .error (.strayQuote start cur.lineNo (cur.col + byteLength cur.line))

/-- Reads the fields of a record from the cursor on, `start` being the number of its first
line. A field without quotes ends at a comma or at the end of its line. -/
def recordFields (start : Nat) : Nat → Cursor → Except RecordError (List String)
  | 0, _ => .ok []
  | fuel + 1, cur =>
    match cur.line with
    | '"' :: body =>
      match quotedField start fuel { cur with line := body, col := cur.col + 1 } [] with
      | .error e => .error e
      | .ok (f, none) => .ok [f]
      | .ok (f, some next) => (f :: ·) <$> recordFields start fuel next
    | line =>
      let comma := line.findIdx? (· == ',')
      let field := match comma with
        | some i => line.take i
        | none => if line.getLast? == some '\n' then line.dropLast else line
      match field.findIdx? (· == '"') with
      | some j => .error (.bareQuote start cur.lineNo (cur.col + byteLength (field.take j)))
      | none =>
        match comma with
        | some i =>
          (String.ofList field :: ·) <$>
            recordFields start fuel { cur with line := line.drop (i + 1), col := cur.col + byteLength field + 1 }
        | none => .ok [String.ofList field]

/-- The fields of the first record of a text, which starts at its first line that is not
blank. -/
def readRecord (s : String) : Except RecordError (List String) :=
  let lines := recordLines s.toList []
  let blank := (lines.takeWhile isBlankLine).length
  match lines.drop blank with
  | [] => .error .noRecord
  | first :: rest =>
    recordFields (blank + 1) (2 * (s.length + lines.length + 2)) ⟨first, blank + 1, 1, rest⟩

/-! ## Reading the arguments -/

/-- Why the arguments cannot be read. -/
inductive FlagError
  | badSyntax (arg : String)
  | unknownLong (name : String)
  | unknownShort (c : Char) (cluster : String)
  | missingLong (arg : String)
  | missingShort (c : Char) (cluster : String)
  | invalid (value : String) (flag : Flag) (reason : String)

/-- How a flag is named in messages: both names, or the long one. -/
def Flag.label (f : Flag) : String :=
  match f.short with
  | some c => "-" ++ c.toString ++ ", --" ++ f.name
  | none => "--" ++ f.name

/-- A character between single quotes, escaped as in a quoted text except that a double quote
stands as it is and a single quote is escaped. -/
def quoteChar (c : Char) : String :=
  if c = '\'' then "'\\''"
  else if c = '"' then "'\"'"
  else "'" ++ ((Text.quote c.toString).drop 1 |>.dropEnd 1).toString ++ "'"

/-- The first byte of a character's UTF-8 encoding, as a character. -/
def leadByte (c : Char) : Char :=
  let n := c.toNat
  Char.ofNat <|
    if n < 0x80 then n else if n < 0x800 then 0xC0 + n / 64
    else if n < 0x10000 then 0xE0 + n / 4096 else 0xF0 + n / 262144

/-- The message of a flag error. -/
def FlagError.message : FlagError → String
  | .badSyntax a => "bad flag syntax: " ++ a
  | .unknownLong n => "unknown flag: --" ++ n
  | .unknownShort c s => "unknown shorthand flag: " ++ quoteChar c ++ " in -" ++ s
  | .missingLong a => "flag needs an argument: " ++ a
  | .missingShort c s => "flag needs an argument: " ++ quoteChar c ++ " in -" ++ s
  | .invalid v f r => "invalid argument " ++ Text.quote v ++ " for " ++ Text.quote f.label ++ " flag: " ++ r

/-- The parsed flags with a flag set to a value read from a text. -/
def Parsed.set (p : Parsed) (f : Flag) (v : String) : Except FlagError Parsed :=
  let put (x : FlagValue) : Parsed :=
    { p with values := if p.changed f.name then p.values.map fun (n, old) => (n, if n == f.name then x else old)
                       else p.values ++ [(f.name, x)] }
  match f.kind with
  | .switch =>
    match readBool v with
    | some b => .ok (put (.switch b))
    | none => .error (.invalid v f ("strconv.ParseBool: parsing " ++ Text.quote v ++ ": invalid syntax"))
  | .text => .ok (put (.text v))
  | .texts =>
    let read := if v.isEmpty then .ok [] else readRecord v
    match read with
    | .error e => .error (.invalid v f e.message)
    | .ok ss => .ok (put (.texts (if p.changed f.name then p.texts f.name ++ ss else ss)))

/-- The flag with a long name. -/
def findLong (flags : List Flag) (n : String) : Option Flag := flags.find? (·.name == n)

/-- The flag with a short name. -/
def findShort (flags : List Flag) (c : Char) : Option Flag := flags.find? (·.short == some c)

/-- Reads an argument `--…`: the flags and the arguments left. -/
def readLong (flags : List Flag) (p : Parsed) (arg : String) (rest : List String) :
    Except FlagError (Parsed × List String) :=
  let name := (arg.drop 2).toString
  if name.isEmpty ∨ name.startsWith "-" ∨ name.startsWith "=" then .error (.badSyntax arg)
  else
    let key := (name.splitOn "=").headD name
    match findLong flags key with
    | none => .error (.unknownLong key)
    | some f =>
      if name.contains '=' then (·, rest) <$> p.set f ((name.drop (key.length + 1)).toString)
      else if f.kind = .switch then (·, rest) <$> p.set f "true"
      else
        match rest with
        | v :: more => (·, more) <$> p.set f v
        | [] => .error (.missingLong arg)

/-- Reads the rest of a cluster of short names: the flags and the arguments left. Messages
name the part of the cluster not yet read. -/
def readCluster (flags : List Flag) (rest : List String) :
    Nat → Parsed → List Char → Except FlagError (Parsed × List String)
  | 0, p, _ => .ok (p, rest)
  | _, p, [] => .ok (p, rest)
  | fuel + 1, p, c :: cs =>
    let here := String.ofList (c :: cs)
    if here.startsWith "test." then .ok (p, rest)
    else if c.toNat ≥ 0x80 then .error (.unknownShort (leadByte c) here)
    else
      match findShort flags c with
      | none => .error (.unknownShort c here)
      | some f =>
        match cs with
        | '=' :: v :: vs => (·, rest) <$> p.set f (String.ofList (v :: vs))
        | _ =>
          if f.kind = .switch then do
            let p' ← p.set f "true"
            readCluster flags rest fuel p' cs
          else if !cs.isEmpty then (·, rest) <$> p.set f (String.ofList cs)
          else
            match rest with
            | v :: more => (·, more) <$> p.set f v
            | [] => .error (.missingShort c here)

/-- Reads the arguments. -/
def readArgs (flags : List Flag) : Nat → Parsed → List String → Except FlagError Parsed
  | _, p, [] => .ok p
  | 0, p, args => .ok { p with args := p.args ++ args }
  | fuel + 1, p, a :: rest =>
    if a.length ≤ 1 ∨ !a.startsWith "-" then readArgs flags fuel { p with args := p.args ++ [a] } rest
    else if a == "--" then .ok { p with args := p.args ++ rest }
    else if a.startsWith "--" then do
      let (p', rest') ← readLong flags p a rest
      readArgs flags fuel p' rest'
    else
      let cluster := (a.drop 1).toString
      do
        let (p', rest') ← readCluster flags rest cluster.length p cluster.toList
        readArgs flags fuel p' rest'

/-- Reads a command line against a set of flags. -/
def parseFlags (flags : List Flag) (args : List String) : Except FlagError Parsed :=
  readArgs flags args.length {} args

end ExprTranslate.Cli
