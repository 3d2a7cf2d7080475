import GraphMapping.Text.Blank
import GraphMapping.Text.Digits
import GraphMapping.Text.LetterForms

/-!
# Server addresses

An address may begin with the name of a protocol.  Control characters and spaces around an address do
not count, nor do tabs and line ends within it.  A name counts only if a host follows it; where no
name counts, the address is that of a host, to be reached by the plain protocol.
-/

namespace GraphMapping.Address

/-- A control character below the space, or the space. -/
def isMargin (c : Char) : Bool :=
  c.toNat ≤ 0x20

/-- The characters of an address that count. -/
def significant (address : String) : List Char :=
  let inner := ((address.toList.dropWhile isMargin).reverse.dropWhile isMargin).reverse
  inner.filter fun c => c != '\t' && c != '\n' && c != '\r'

/-- A character of the name of a protocol. -/
def isNameChar (c : Char) : Bool :=
  c.isAlphanum || c == '+' || c == '-' || c == '.'

/-- The name of a protocol, in small letters, and what stands after its colon. -/
def cutName (cs : List Char) : Option (String × List Char) :=
  match Text.cut ':' cs with
  | some (c :: name, rest) =>
      if c.isAlpha && name.all isNameChar then some (String.ofList (Text.lower (c :: name)), rest)
      else none
  | _ => none

/-- The protocols of the web.  Any number of slashes, also none, may stand between name and host. -/
def webProtocols : List String :=
  ["http", "https", "ws", "wss", "ftp"]

/-- What stands after two slashes and before the path. -/
def authority (cs : List Char) : List Char :=
  cs.takeWhile fun c => c != '/' && c != '?' && c != '#'

/-- The host that an authority names, without user and port. -/
def host (cs : List Char) : List Char :=
  let owner := (cs.reverse.takeWhile (· != '@')).reverse
  owner.takeWhile (· != ':')

/-! ### Addresses of files -/

/-- A letter for a drive, marked by a colon or a bar. -/
def isDrive : List Char → Bool
  | [c, mark] => c.isAlpha && (mark == ':' || mark == '|')
  | _ => false

/-- The bytes of a text in which a percent sign may write a byte by two digits. -/
def unescaped : List Char → List UInt8
  | '%' :: high :: low :: rest =>
      match Text.numberIn? 16 [high, low] with
      | some byte => .ofNat byte :: unescaped rest
      | none => '%'.toNat.toUInt8 :: unescaped (high :: low :: rest)
  | c :: rest => String.utf8EncodeChar c ++ unescaped rest
  | [] => []

/-- The name of the own computer, in whatever form its letters are written. -/
def isOwnComputer (host : List Char) : Bool :=
  match String.fromUTF8? ⟨(unescaped host).toArray⟩ with
  | some name => Text.inPlainLetters name.toList == "localhost".toList
  | none => false

/-- How many dots a step of a path stands for, if it is no name: one dot stays, two dots step back. -/
def dots? (step : List Char) : Option Nat :=
  match String.ofList (Text.lower step) with
  | "." | "%2e" => some 1
  | ".." | ".%2e" | "%2e." | "%2e%2e" => some 2
  | _ => none

/-- Whether a path that is `depth` steps down from its root leads to a drive at the root.  There is no
step back over a drive. -/
def reachesDrive (depth : Nat) : List (List Char) → Bool
  | [] => false
  | step :: rest =>
      match dots? step with
      | some 1 => reachesDrive depth rest
      | some _ => reachesDrive (depth - 1) rest
      | none => if isDrive step then depth == 0 else reachesDrive (depth + 1) rest

/-- Whether the address of a file names another computer: a drive, reached at once or by the path, is
one of the own computer. -/
def namesOtherComputer (cs : List Char) : Bool :=
  let host := authority cs
  let path := (cs.drop host.length).takeWhile fun c => c != '?' && c != '#'
  let steps := Text.split '/' (path.drop 1)
  !(host.isEmpty || isDrive host || isOwnComputer host || reachesDrive 0 steps)

/-! ### Protocols -/

/-- Whether a host follows the name of a protocol.  The address of a file may use slashes of either
kind. -/
def hasHost (name : String) (rest : List Char) : Bool :=
  let isFile := name == "file"
  match if isFile then rest.map fun c => if c = '\\' then '/' else c else rest with
  | '/' :: '/' :: rest => if isFile then namesOtherComputer rest else !(host (authority rest)).isEmpty
  | _ => false

/-- The protocol that an address names, if its name counts. -/
def protocol? (address : String) : Option String :=
  match cutName (significant address) with
  | some (name, rest) =>
      if webProtocols.contains name || hasHost name rest then some name else none
  | none => none

end GraphMapping.Address
