import DsaBroker.DSAValue

/-!
# Paths

The path functions of the package object `models` and of `ResponderBehavior`.  Java's
`split` drops trailing empty fields, and the dot of a Java pattern does not match a line
terminator; both show in the results below and are kept.
-/

namespace DsaBroker

def slash : UInt16 := 47

def atSign : UInt16 := 64

def dollar : UInt16 := 36

/-- `dropRight`. -/
def dropRight (path : Str) (count : Nat) : Str := path.take (path.length - count)

def startsWith (path start : Str) : Bool := start.isPrefixOf path

def endsWith (path tail : Str) : Bool := tail.isSuffixOf path

/-! ### Java's `split` at slashes -/

/-- The fields between slashes, empty ones included. -/
def fields : Str → List Str
  | [] => [[]]
  | c :: rest =>
      if c = slash then [] :: fields rest
      else match fields rest with
        | [] => [[c]]
        | field :: more => (c :: field) :: more

/-- `path.split("/")`: trailing empty fields are removed, and a path without any slash is
its own only field. -/
def split (path : Str) : List Str :=
  if slash ∈ path then ((fields path).reverse.dropWhile List.isEmpty).reverse else [path]

/-- Splits a path into a (node, attribute/config) pair. If the path does not represents an
attribute or config, the second element of the returned tuple will be `none`. -/
def splitPath (path : Str) : Str × Option Str :=
  match (split path).getLast? with
  | some s =>
      if startsWith s [atSign] || startsWith s [dollar] then
        (dropRight path (s.length + 1), some s)
      else (path, none)
  | none => (path, none)

/-! ### Attributes -/

/-- What `.` does not match. -/
def isLineTerminator (c : UInt16) : Bool :=
  c = 10 || c = 13 || c = 0x85 || c = 0x2028 || c = 0x2029

/-- The longest tail that `[^/@]+` can match. -/
def attributeTail (path : Str) : Str :=
  (path.reverse.takeWhile fun c => c ≠ slash && c ≠ atSign).reverse

/-- Returns `true` if the path represents an attribute: `path matches ".*/@[^/@]+"`. -/
def isAttribute (path : Str) : Bool :=
  let tail := attributeTail path
  let front := dropRight path tail.length
  !tail.isEmpty && endsWith front [slash, atSign]
    && (dropRight front 2).all fun c => !isLineTerminator c

/-! ### Paths under a link -/

/-- Removes the linkPath prefix from the path. -/
def translatePath (linkPath path : Str) : Str :=
  let chopped := path.drop linkPath.length
  if startsWith chopped [slash] then chopped else slash :: chopped

/-- Every path sent to the endpoint is absolute. -/
theorem translatePath_absolute (linkPath path : Str) :
    startsWith (translatePath linkPath path) [slash] = true := by
  by_cases h : startsWith (path.drop linkPath.length) [slash] = true
  · simp only [translatePath, h, if_true]
  · have hneg : startsWith (path.drop linkPath.length) [slash] = false := by simpa using h
    simp only [translatePath, hneg, Bool.false_eq_true, if_false]
    simp [startsWith]

/-! ### The link of a path -/

/-- `Settings.Paths.Downstream`. -/
def downstream : Str := str "/downstream"

/-- `Settings.Paths.Upstream`. -/
def upstream : Str := str "/upstream"

/-- `[\w\-]`. -/
def isNameChar (c : UInt16) : Bool :=
  48 ≤ c && c ≤ 57 || 65 ≤ c && c ≤ 90 || 97 ≤ c && c ≤ 122 || c = 95 || c = 45

/-- The group that `[\w\-]+` matches in `<parent>/([\w\-]+)(/.*)?`, if the whole path matches.
No name contains a slash, so the group is as long as it can be. -/
def matchLink (parent path : Str) : Option Str :=
  if startsWith path (parent ++ [slash]) then
    let rest := path.drop (parent.length + 1)
    let name := rest.takeWhile isNameChar
    let tail := rest.dropWhile isNameChar
    if name ≠ [] ∧
        (tail = [] ∨ startsWith tail [slash] ∧ tail.all fun c => !isLineTerminator c) then
      some name
    else none
  else none

/-- Resolves the target link path from the request path. -/
def doResolveLinkPath (path : Str) : Str :=
  if path = downstream then downstream
  else
    match matchLink downstream path with
    | some responder => downstream ++ slash :: responder
    | none =>
        if path = upstream then upstream
        else
          match matchLink upstream path with
          | some broker => upstream ++ slash :: broker
          | none => (splitPath path).1

/-- Retrieves the target link from the cache or does path resolution.  The cache holds only
what was resolved before. -/
def resolveLinkPath (path : Str) : Str := doResolveLinkPath path

example : splitPath (str "/a/b/@c") = (str "/a/b", some (str "@c")) := by decide
example : isAttribute (str "/a/b/@c") = true ∧ isAttribute (str "/a/@b/c") = false := by decide

end DsaBroker
