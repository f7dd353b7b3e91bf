import ExprTranslate.Double.Text
/-!
# Scopes and tags

A tag is a named variable with a kind and, once set, a value. A scope maps
names to tags and may have a parent scope; resolving a name looks in the
scope, then in its parent, and so on up. Scopes live in a `ScopeTree`,
numbered in the order they were made, so that a parent is always older than
its children.

Kinds are signed bytes: 1 is an identifier, 2 a temporary, and every other
value is undefined. A kind given as a wider number keeps its low eight bits.
-/

namespace ExprTranslate

/-- A named variable. -/
structure Tag where
  name : String
  kind : Int8 := 0
  value : Option Float := none
  deriving Inhabited

/-- The name of a tag kind. -/
def Tag.kindName (k : Int8) : String :=
  if k = 1 then "identifier" else if k = 2 then "temporary" else "undefined"

/-- `<tag 'name':kind>`, with `=value` before the bracket once a value is set. -/
def Tag.render (t : Tag) : String :=
  let v := match t.value with
    | some x => "=" ++ Double.text x
    | none => ""
  "<tag '" ++ t.name ++ "':" ++ Tag.kindName t.kind ++ v ++ ">"

/-- A scope: a name, the number of its parent scope, and its tags by name. -/
structure Scope where
  name : String
  parent : Option Nat
  tags : List (String × Tag) := []
  deriving Inhabited

/-- The text `<scope name>`. -/
def Scope.render (s : Scope) : String := "<scope " ++ s.name ++ ">"

/-- The tag a scope holds under a name, without looking at parents. -/
def Scope.find? (s : Scope) (name : String) : Option Tag := (s.tags.find? (·.1 == name)).map (·.2)

/-- Puts a tag under its name, replacing the tag held there before. -/
def Scope.put (s : Scope) (t : Tag) : Scope :=
  { s with tags := (t.name, t) :: s.tags.filter (·.1 != t.name) }

/-- The tags of a scope, sorted by name. -/
def Scope.sorted (s : Scope) : List Tag :=
  (s.tags.mergeSort fun a b => decide (a.1 ≤ b.1)).map (·.2)

/-- Scopes numbered in the order they were made; a parent is older than its children. -/
structure ScopeTree where
  scopes : Array Scope := #[]
  deriving Inhabited

namespace ScopeTree

/-- Makes a scope with an optional parent, and gives its number. A parent number that is not
an older scope is ignored. -/
def create (t : ScopeTree) (name : String) (parent : Option Nat) : ScopeTree × Nat :=
  let n := t.scopes.size
  let parent := parent.filter (· < n)
  ({ scopes := t.scopes.push { name, parent } }, n)

/-- The scope with a number. -/
def get? (t : ScopeTree) (s : Nat) : Option Scope := t.scopes[s]?

/-- Replaces the scope with a number. -/
def modify (t : ScopeTree) (s : Nat) (f : Scope → Scope) : ScopeTree :=
  { scopes := t.scopes.modify s f }

/-- Makes a fresh tag under a name in a scope, and gives it with the tag it replaces; an empty
name defines nothing. -/
def define (t : ScopeTree) (s : Nat) (name : String) : ScopeTree × Option (Tag × Option Tag) :=
  match t.get? s with
  | none => (t, none)
  | some sc =>
    if name.isEmpty then (t, none)
    else
      let tag : Tag := { name }
      (t.modify s (·.put tag), some (tag, sc.find? name))

/-- The tag under a name in the scope itself, made fresh if there is none; `true` when it was
found. An empty name gives nothing. -/
def resolveOrDefine (t : ScopeTree) (s : Nat) (name : String) : ScopeTree × Option Tag × Bool :=
  match t.get? s with
  | none => (t, none, false)
  | some sc =>
    if name.isEmpty then (t, none, false)
    else match sc.find? name with
      | some tag => (t, some tag, true)
      | none =>
        let tag : Tag := { name }
        (t.modify s (·.put tag), some tag, false)

/-- Looks a name up in a scope and then in its ancestors: the tag and the number of the scope
that holds it. -/
def resolve (t : ScopeTree) (s : Nat) (name : String) : Option (Tag × Nat) :=
  climb t.scopes.size s
where
  climb : Nat → Nat → Option (Tag × Nat)
    | 0, _ => none
    | fuel + 1, s =>
      match t.get? s with
      | none => none
      | some sc =>
        match sc.find? name with
        | some tag => some (tag, s)
        | none =>
          match sc.parent with
          | some p => climb fuel p
          | none => none

/-- Changes the tag a name resolves to, and gives it changed. -/
def update (t : ScopeTree) (s : Nat) (name : String) (f : Tag → Tag) : ScopeTree × Option Tag :=
  match t.resolve s name with
  | none => (t, none)
  | some (tag, owner) =>
    let tag := f tag
    (t.modify owner (·.put tag), some tag)

/-- Puts a fresh tag of a kind under a name, and gives the tag it replaces. -/
def insert (t : ScopeTree) (s : Nat) (name : String) (kind : Int8) : ScopeTree × Option Tag :=
  match t.get? s with
  | none => (t, none)
  | some sc => (t.modify s (·.put { name, kind }), sc.find? name)

/-- The scopes of a machine: `globals` holding the bindings as identifiers, in the order of
their names, and `temporaries` below it; none if a name is empty, as no tag can be defined
for it. -/
def environment (bindings : List (String × Float)) : Option ScopeTree :=
  if bindings.any (·.1.isEmpty) then none
  else
    let (t, g) := ({} : ScopeTree).create "globals" none
    let sorted := bindings.mergeSort fun a b => decide (a.1 ≤ b.1)
    let t := sorted.foldl (fun t (n, v) => t.modify g (·.put { name := n, kind := 1, value := some v })) t
    some (t.create "temporaries" (some g)).1

end ScopeTree

end ExprTranslate
