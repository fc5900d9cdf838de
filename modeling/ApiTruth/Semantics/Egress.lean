import ApiTruth.Foundation.Patterns

/-!
# Texts that may leave for a model

Conservative exclusion patterns for the texts that are sent to a model provider: prose without
anything that looks like a credential, identifiers of source code, and routes of literal segments
and ordinary placeholders.

## Main definitions

* `isSemanticDocumentTextSafe`, `isSemanticIntentQuerySafe`.
* `isSemanticSourceIdentifierSafe`, `isSemanticSourceRouteSafe`.
-/

namespace ApiTruth.Semantics

open Regex

/-! ### Classes -/

/-- `[A-Za-z]`. -/
def letter : Regex := one Char.isAlpha

/-- `[A-Za-z0-9]`. -/
def letterOrDigit : Regex := one Char.isAlphanum

/-- `[A-Za-z0-9_-]`. -/
def tokenChar : Regex := one fun c => c.isAlphanum || c == '_' || c == '-'

/-- `\s`. -/
def space : Regex := one isSpace

/-- `\S`. -/
def nonSpace : Regex := one fun c => !isSpace c

/-- `[A-Za-z][A-Za-z0-9+.-]*:`. -/
def scheme : Regex :=
  inOrder [letter, many (one fun c => c.isAlphanum || "+.-".toList.contains c), exactly ":"]

/-! ### Prose -/

/-- `(?:api[_-]?key|secret|password|token|authorization)`, in any case. -/
def credentialName : Regex :=
  oneOf [inOrder [anyCase "api", optional (among "_-"), anyCase "key"], anyCase "secret",
    anyCase "password", anyCase "token", anyCase "authorization"]

/-- The well-known formats of keys and tokens, in any case. -/
def issuedToken : Regex :=
  oneOf [inOrder [anyCase "sk_live_", atLeast 1 letterOrDigit],
    inOrder [anyCase "sk-", atLeast 10 tokenChar],
    inOrder [anyCase "gh", one fun c => "pousr".toList.contains c.toLower, exactly "_",
      atLeast 20 letterOrDigit],
    inOrder [anyCase "AKIA", times 16 letterOrDigit],
    inOrder [anyCase "AIza", atLeast 20 tokenChar],
    inOrder [anyCase "eyJ", atLeast 10 tokenChar, exactly ".", atLeast 10 tokenChar, exactly ".",
      atLeast 10 tokenChar]]

def credentialPattern : Regex :=
  oneOf [
    inOrder [anyCase "-----BEGIN ", many (one fun c => c.isAlpha || c == ' '),
      anyCase "PRIVATE KEY-----"],
    inOrder [credentialName, many space, among ":=", many space, atLeast 1 nonSpace],
    inOrder [scheme, exactly "//", atLeast 1 (one fun c => !isSpace c && c != '/'), exactly "@"],
    inOrder [boundary, anyCase "Bearer", atLeast 1 space, atLeast 1 nonSpace],
    inOrder [boundary, issuedToken]]

/-- `[\u0000-\u0008\u000b\u000c\u000e-\u001f\u007f]`. -/
def isUnprintable (c : Char) : Bool := isControl c && !"\t\n\r".toList.contains c

def isSemanticDocumentTextSafe (value : String) (maximum : ℕ) : Bool :=
  !isBlank value && decide (unitLength value ≤ maximum) && !value.toList.any isUnprintable &&
    !credentialPattern.test value

/-- `/[\r\n]|\b[A-Za-z][A-Za-z0-9+.-]*:(?:\/\/|\S)/i`. -/
def intentPattern : Regex :=
  oneOf [among "\r\n", inOrder [boundary, scheme, oneOf [exactly "//", nonSpace]]]

def isSemanticIntentQuerySafe (value : String) : Bool :=
  isSemanticDocumentTextSafe value 512 && !intentPattern.test value

/-! ### Source code -/

/-- `[A-Za-z_$]`. -/
def isIdentifierStart (c : Char) : Bool := c.isAlpha || c == '_' || c == '$'

/-- `[A-Za-z0-9_$]`. -/
def isIdentifierChar (c : Char) : Bool := c.isAlphanum || c == '_' || c == '$'

/-- `/^[A-Za-z_$][A-Za-z0-9_$]*$/`, on characters. -/
def isIdentifierWord (cs : List Char) : Bool :=
  cs.head?.any isIdentifierStart && cs.all isIdentifierChar

def isSemanticSourceIdentifierSafe (value : String) : Bool :=
  isIdentifierWord value.toList && decide (value.length ≤ 128) &&
    isSemanticDocumentTextSafe value 128

/-- `sourceRouteSegment`: a literal segment, `:name` or `{name}`. -/
def isSourceRouteSegment : List Char → Bool
  | ':' :: name => isIdentifierWord name
  | '{' :: rest => rest.getLast? == some '}' && isIdentifierWord rest.dropLast
  | cs => !cs.isEmpty && cs.all fun c => c.isAlphanum || "._~-".toList.contains c

def routeMethods : List String := ["GET", "POST", "PUT", "PATCH", "DELETE", "HEAD", "OPTIONS"]

def isSemanticSourceRouteSafe (method path : String) : Bool :=
  routeMethods.contains method && decide (1 ≤ unitLength path) && decide (unitLength path ≤ 512) &&
    path.toList.head? == some '/' && !(path.toList.any fun c => "\\?#".toList.contains c) &&
    isSemanticDocumentTextSafe (method ++ " " ++ path) 520 &&
    (path == "/" || ((path.toList.drop 1).splitOn '/').all fun segment =>
      !segment.isEmpty && segment != ['.'] && segment != ['.', '.'] &&
        isSourceRouteSegment segment)

example : isSemanticDocumentTextSafe "Authorization: basic abc" 64 = false := by decide +kernel

example : isSemanticSourceRouteSafe "GET" "/orders/:id" = true := by decide +kernel

end ApiTruth.Semantics
