import ExprTranslate.Cli.Session
/-!
# The translation cache of a session

A session keeps the translations it has made, keyed by what they were made from: the lexemes of
the line's tokens, whether identities are eliminated, and the bindings sorted by name. The cache
holds fingerprints of keys, made by a hash function the session is given. A line whose
fingerprint is in the cache shows the kept translation and is not translated again; a
translation that fails is not kept. Commands and lines with unrecognized words never reach the
cache.
-/

namespace ExprTranslate.Cli

/-- What a translation is keyed by: the lexemes of the tokens, whether identities are
eliminated, and the bindings sorted by name. -/
structure TranslationKey where
  input : List String
  optimize : Bool
  bindings : List (String × Float)
  deriving DecidableEq

/-- Bindings sorted by name, bindings of one name in the order they had. -/
def sortedBindings (b : Bindings Float) : List (String × Float) :=
  b.mergeSort fun x y => decide (x.1 ≤ y.1)

/-- The key of translating tokens in a session. -/
def Session.cacheKey (s : Session) (tokens : List Token) : TranslationKey :=
  { input := tokens.map (·.lexeme), optimize := s.settings.optimize,
    bindings := sortedBindings s.settings.bindings }

/-- Kept translations, by the fingerprints of their keys. -/
abbrev TranslationCache := List (String × Translated Float)

/-- What an expression line shows once translated: its code and value, or the error. -/
def Session.answer (s : Session) (t : Translated Float) : Reply :=
  match t.ending with
  | .success v _ => .shown (renderCode t.code ++ "= " ++ Double.text v ++ "\n") s
  | e => .failed ((endingError e).getD "")

/-- Evaluates one trimmed, non-empty line as `Session.eval` does, through a cache of
translations fingerprinted by `hash`; gives also the cache after the line. -/
def Session.evalCached (hash : TranslationKey → String) (cache : TranslationCache) (s : Session)
    (line : String) : (String × Reply) × TranslationCache :=
  if line.startsWith ":" then (("", s.command (Text.words (line.drop 1).toString)), cache)
  else
    let sc := ({} : Scanner).scanLine line
    let shown := if s.showTokens then report sc.tokens else ""
    if !sc.errors.isEmpty then
      ((shown, .failed ("; ".intercalate (sc.errors.toList.map (·.message)))), cache)
    else
      let key := hash (s.cacheKey sc.tokens)
      match cache.lookup key with
      | some t => ((shown, s.answer t), cache)
      | none =>
        let t := translate s.settings.config sc.tokens
        ((shown, s.answer t), if (endingError t.ending).isNone then (key, t) :: cache else cache)

end ExprTranslate.Cli
