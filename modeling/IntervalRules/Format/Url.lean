import IntervalRules.Text.Blank
import IntervalRules.Text.Split
import IntervalRules.Format.Email

/-!
Addresses of the form `[scheme:]//[user@]host[:number][/path]`. The scheme is `http`,
`https` or `ftp`, without regard to case. The host is four short numbers or a domain
name whose labels may hold any character from U+00A1 to U+FFFF beside letters and digits.
A user part ends at any `@` that no blank character precedes.
-/

namespace IntervalRules.Format

/-- Whether a character is a given small letter up to case folding, which takes the long s
for an `s`. -/
def foldsTo (letter c : Char) : Bool :=
  c == letter || c.toLower == letter || (letter == 's' && c == 'ſ')

/-- The rest after a word of small letters and other characters, without regard to case. -/
def afterWord? : List Char → List Char → Option (List Char)
  | [], cs => some cs
  | _ :: _, [] => none
  | letter :: word, c :: cs => if foldsTo letter c then afterWord? word cs else none

/-- The characters beyond ASCII that a host name may hold. -/
def isWideHostChar (c : Char) : Bool := 0xa1 ≤ c.toNat && c.toNat ≤ 0xffff

def isHostLetter (c : Char) : Bool := Text.isAsciiLetter c || isWideHostChar c

def isHostChar (c : Char) : Bool := isHostLetter c || Text.isDigit 10 c

/-- A label before the last: up to 63 characters, the first no hyphen or underscore. -/
def isHostLabel : List Char → Bool
  | [] => false
  | c :: rest =>
    isHostChar c && rest.length ≤ 62 && rest.all fun d => isHostChar d || d == '_' || d == '-'

def isTopLabel (label : List Char) : Bool := 2 ≤ label.length && label.all isHostLetter

/-- Labels joined by points; one more point may follow the last. -/
def isDomainName (host : List Char) : Bool :=
  let labels := Text.split '.' (if host.getLast? = some '.' then host.dropLast else host)
  2 ≤ labels.length && labels.dropLast.all isHostLabel && labels.getLast?.any isTopLabel

/-- Four numbers of up to three digits, joined by points. -/
def isDottedQuad (host : List Char) : Bool :=
  let parts := Text.split '.' host
  parts.length == 4 &&
    parts.all fun part => 1 ≤ part.length && part.length ≤ 3 && part.all (Text.isDigit 10)

/-- Nothing, or `/`, `?` or `#` and anything without blanks. -/
def isUrlTail : List Char → Bool
  | [] => true
  | c :: rest => (c == '/' || c == '?' || c == '#') && rest.all fun d => !Text.isBlank d

/-- An optional number of two to five digits after a colon, and the tail. -/
def isNumberAndTail : List Char → Bool
  | ':' :: rest =>
    let number := rest.takeWhile (Text.isDigit 10)
    2 ≤ number.length && number.length ≤ 5 && isUrlTail (rest.dropWhile (Text.isDigit 10))
  | cs => isUrlTail cs

def endsHost (c : Char) : Bool := c == ':' || c == '/' || c == '?' || c == '#'

/-- A host with what follows it. -/
def isSite (cs : List Char) : Bool :=
  let host := cs.takeWhile fun c => !endsHost c
  (isDottedQuad host || isDomainName host) && isNumberAndTail (cs.dropWhile fun c => !endsHost c)

/-- Whether the text, which follows a nonempty part of a user name, holds the rest of that name
and a site. -/
def hasSiteAfterUser : List Char → Bool
  | [] => false
  | c :: rest => (c == '@' && isSite rest) || (!Text.isBlank c && hasSiteAfterUser rest)

/-- A site with an optional user name before it. -/
def isAuthority (cs : List Char) : Bool :=
  isSite cs ||
    match cs with
    | [] => false
    | c :: rest => !Text.isBlank c && hasSiteAfterUser rest

def isUrl (cs : List Char) : Bool :=
  ["//", "http://", "https://", "ftp://"].any fun opening =>
    (afterWord? opening.toList cs).any isAuthority

example : isUrl "//cdn.example.org".toList := by decide

example : ¬ isUrl "example.com".toList := by decide

end IntervalRules.Format
