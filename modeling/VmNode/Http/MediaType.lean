import VmNode.Text.Split

/-!
# Media types

The type of a body: a type and a subtype, which may end in a plus sign and a
suffix, and parameters. Letters count the same in both cases.
-/

namespace VmNode.Http

/-- A media type without its parameters. -/
structure MediaType where
  /-- The type. -/
  main : String
  /-- The subtype without its suffix. -/
  sub : String
  /-- The suffix. -/
  suffix : Option String
  deriving DecidableEq

namespace MediaType

/-- The characters of names and plain values. -/
def isToken (c : Char) : Bool := c.isAlphanum || "!#$%&'*+-.^_`|~".toList.contains c

/-- The characters between quotes. -/
def isQuotable (c : Char) : Bool := ' ' ≤ c && c ≤ '~'

/-- What is left after a quoted value. The first character of the value may itself
    be a quote; any other quote ends it. -/
def skipQuoted? : List Char → Option (List Char)
  | [] => none
  | first :: rest =>
    let value := first :: rest.takeWhile (· ≠ '"')
    match rest.dropWhile (· ≠ '"') with
    | _ :: rest => if value.all isQuotable then some rest else none
    | [] => none

/-- Whether a text is a row of parameters, each before a semicolon or the end. -/
def areParameters (fuel : Nat) (s : List Char) : Bool :=
  match fuel, s.dropWhile (· = ' ') with
  | _, [] => true
  | 0, _ => false
  | fuel + 1, s =>
    let name := s.takeWhile isToken
    match name, s.dropWhile isToken with
    | _ :: _, '=' :: '"' :: rest =>
      match (skipQuoted? rest).map (·.dropWhile (· = ' ')) with
      | some [] => true
      | some (';' :: rest) => areParameters fuel rest
      | _ => false
    | _ :: _, '=' :: rest =>
      match rest.takeWhile isToken, rest.dropWhile isToken with
      | _, [] => true
      | _ :: _, ';' :: rest => areParameters fuel rest
      | _, _ => false
    | _, _ => false

/-- The text in small letters. -/
def lowered (s : List Char) : String := String.ofList (s.map Char.toLower)

/-- A subtype and its suffix, behind the last plus sign that is not the first
    character. -/
def splitSuffix (s : List Char) : List Char × Option (List Char) :=
  match s with
  | [] => ([], none)
  | first :: rest =>
    if rest.contains '+' then
      let suffix := (rest.reverse.takeWhile (· ≠ '+')).reverse
      (first :: rest.take (rest.length - suffix.length - 1), some suffix)
    else (s, none)

/-- The media type that a text spells. -/
def ofText? (text : String) : Option MediaType :=
  match Text.cut '/' text.toList with
  | (main@(_ :: _), some rest) =>
    let sub := rest.takeWhile isToken
    let isWhole := match rest.dropWhile isToken with
      | [] => true
      | ';' :: parameters => !sub.isEmpty && areParameters parameters.length parameters
      | _ => false
    if main.all isToken && isWhole then
      let (sub, suffix) := splitSuffix sub
      some ⟨lowered main, lowered sub, suffix.map lowered⟩
    else none
  | _ => none

/-- Whether bodies of the type are JSON. -/
def isJson (m : MediaType) : Bool :=
  m.main == "application" && (m.sub == "json" || m.suffix == some "json")

end MediaType

end VmNode.Http
