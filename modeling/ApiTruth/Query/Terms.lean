import ApiTruth.Foundation.Patterns
import ApiTruth.Foundation.Words

/-!
# Search terms

A query and the texts it is compared with are reduced to terms: normalized, split at camel case,
lower-cased, cut into words of letters and numbers, and without stop words.  Only the first
thirty-two terms of a text are kept.

## Main definitions

* `Unicode` : the functions on texts that the runtime provides.
* `allTerms` : the terms of a text.
* `termsFor`, `countMatches` : what is kept of them, and how many of them a text shows.
-/

namespace ApiTruth.Query

open Words

/-- The functions on texts that the runtime provides. -/
structure Unicode where
  /-- `normalize("NFKC")`. -/
  normalizeNFKC : String → String
  /-- `toLocaleLowerCase("en-US")`. -/
  toLocaleLowerCase : String → String
  /-- `[\p{L}\p{N}]`. -/
  isLetterOrNumber : Char → Bool

/-- The functions on ASCII texts. -/
def Unicode.ascii : Unicode where
  normalizeNFKC text := text
  toLocaleLowerCase text := String.ofList (text.toList.map Char.toLower)
  isLetterOrNumber := Char.isAlphanum

/-- `replace(/([a-z0-9])([A-Z])/g, "$1 $2")`. -/
def splitCamelCase : List Char → List Char
  | [] => []
  | c :: cs =>
    if (c.isLower || c.isDigit) && cs.head?.any Char.isUpper then c :: ' ' :: splitCamelCase cs
    else c :: splitCamelCase cs

def stopWords : List String :=
  ["a", "an", "and", "are", "as", "at", "by", "for", "from", "how", "i", "in", "is", "it", "of",
    "on", "or", "the", "to", "with"]

def isTerm (word : String) : Bool := decide (1 < unitLength word) && !stopWords.contains word

variable (unicode : Unicode)

/-- The characters that are cut into words. -/
def reduced (text : String) : List Char :=
  (unicode.toLocaleLowerCase
    (String.ofList (splitCamelCase (unicode.normalizeNFKC text).toList))).toList

def allTerms (text : String) : List String :=
  ((words unicode.isLetterOrNumber (reduced unicode text)).map String.ofList).filter isTerm

def termsFor (text : String) : List String := ((allTerms unicode text).take 32).eraseDups

def countMatches (text : String) (terms : List String) : ℕ :=
  terms.countP fun term => (termsFor unicode text).contains term

variable {unicode} {text term : String} {terms : List String}

theorem countMatches_eq_zero_iff :
    countMatches unicode text terms = 0 ↔ ∀ term ∈ terms, term ∉ termsFor unicode text := by
  simp only [countMatches, List.countP_eq_zero, List.contains_iff_mem]

end ApiTruth.Query
