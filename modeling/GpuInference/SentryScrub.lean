import GpuInference.PythonBase
import GpuInference.RegexMatch

/-!
The scrubber of Sentry events. Entries with a secret or a payload key are replaced as a whole; in every other string the
bearer tokens are replaced first, then the API keys, then the passwords of URLs.
-/

open Regex

namespace GpuInference

/-- `\w`. Beyond ASCII it is `str.isalnum`, which `isalnum` stands for; no space is alphanumeric. -/
def isWordChar (isalnum : Char → Bool) (c : Char) : Bool :=
  if c.toNat < 0x80 then c.isAlphanum || c == '_' else !isPySpace c && isalnum c

/-- `[A-Za-z0-9_\-]`. -/
def isKeyChar (c : Char) : Bool := c.isAlphanum || c == '_' || c == '-'

/-- `[A-Za-z0-9._~+/=\-]`, ignoring case: four characters beyond ASCII are the letters i, s and k in another case. -/
def isTokenChar (c : Char) : Bool :=
  c.isAlphanum || "._~+/=-".toList.contains c || [0x130, 0x131, 0x17F, 0x212A].contains c.toNat

def sameIgnoringCase (c d : Char) : Bool := c.toLower == d.toLower

/-- `[^:/@\s]`. -/
def isUserChar (c : Char) : Bool := c != ':' && c != '/' && c != '@' && !isPySpace c

/-- `[^/@\s]`. -/
def isPasswordChar (c : Char) : Bool := c != '/' && c != '@' && !isPySpace c

/-- `REDACTED`. -/
def redacted : String := "[Filtered]"

/-- `SECRET_KEY_PARTS`. -/
def secretKeyParts : List String :=
  ["authorization", "cookie", "password", "passwd", "secret", "token", "dsn", "credential", "private_key", "tunnel"]

/-- `PAYLOAD_KEY_PARTS`. -/
def payloadKeyParts : List String := ["prompt", "messages", "input"]

/-- `API_KEY_PATTERN`. -/
def apiKeyPattern (isalnum : Char → Bool) : Regex Char :=
  .seq (.boundary (isWordChar isalnum))
    (.seq (.group (.alt (literal (· == ·) "an_".toList (.many 12 isKeyChar))
      (literal (· == ·) "sk-".toList (.many 12 isKeyChar)))) (.boundary (isWordChar isalnum)))

/-- `BEARER_PATTERN`. -/
def bearerPattern : Regex Char :=
  literal sameIgnoringCase "Bearer".toList (.seq (.many 1 isPySpace) (.many 1 isTokenChar))

/-- `URL_CREDENTIAL_PATTERN`. -/
def urlCredentialPattern : Regex Char :=
  literal (· == ·) "://".toList (.seq (.group (.many 1 isUserChar))
    (.seq (.chr (· == ':')) (.seq (.group (.many 1 isPasswordChar)) (.chr (· == '@')))))

/-- `BEARER_PATTERN.sub(f"Bearer {REDACTED}", value)`. -/
def subBearer (before : Option Char) (text : List Char) : List Char :=
  bearerPattern.sub (fun _ => ("Bearer " ++ redacted).toList) before 0 text

/-- `API_KEY_PATTERN.sub(REDACTED, scrubbed)`. -/
def subApiKey (isalnum : Char → Bool) (before : Option Char) (text : List Char) : List Char :=
  (apiKeyPattern isalnum).sub (fun _ => redacted.toList) before 0 text

/-- `URL_CREDENTIAL_PATTERN.sub(r"://\1:***@", scrubbed)`. -/
def subUrlCredential (before : Option Char) (text : List Char) : List Char :=
  urlCredentialPattern.sub (fun groups => "://".toList ++ groups.headD [] ++ ":***@".toList) before 0 text

/-- `_scrub_string`, character by character. -/
def scrubChars (isalnum : Char → Bool) (value : List Char) : List Char :=
  subUrlCredential none (subApiKey isalnum none (subBearer none value))

/-- `_scrub_string`. -/
def scrubString (isalnum : Char → Bool) (value : String) : String := String.ofList (scrubChars isalnum value.toList)

/-- `c.lower()`, as far as ASCII characters come of it. -/
def lowerChar (c : Char) : List Char :=
  if c.toNat = 0x212A then ['k'] else if c.toNat = 0x130 then ['i', Char.ofNat 0x307] else [c.toLower]

/-- `text.lower()`. -/
def lower (text : String) : String := String.ofList (text.toList.flatMap lowerChar)

/-- `part in text`. -/
def contains (text part : String) : Bool := text.toList.tails.any fun tail => part.toList.isPrefixOf tail

/-- `_is_secret_key`. -/
def isSecretKey (key : String) : Bool :=
  if key = "api_key_id" then false
  else if key = "api_key" ∨ key = "apikey" then true
  else secretKeyParts.any fun part => contains key part

/-- `_is_payload_key`. -/
def isPayloadKey (key : String) : Bool := payloadKeyParts.any fun part => contains key part

/-- A value of Python: the four kinds that `scrub_data` tells apart, and all the others. -/
inductive PyValue (Key Scalar : Type) where
  | dict (items : List (Key × PyValue Key Scalar))
  | list (items : List (PyValue Key Scalar))
  | tuple (items : List (PyValue Key Scalar))
  | str (text : String)
  | scalar (value : Scalar)

section Data

variable {Key Scalar : Type} (isalnum : Char → Bool) (keyText : Key → String)

/-- The entry of a key is replaced as a whole; `keyText` is `str(key)`. -/
def redacts (key : Key) : Bool :=
  let text := lower (keyText key)
  isSecretKey text || isPayloadKey text

mutual

/-- `scrub_data`. -/
def scrubData : PyValue Key Scalar → PyValue Key Scalar
  | .dict items => .dict (scrubEntries items)
  | .list items => .list (scrubItems items)
  | .tuple items => .tuple (scrubItems items)
  | .str text => .str (scrubString isalnum text)
  | .scalar value => .scalar value

/-- The entries of a dictionary. -/
def scrubEntries : List (Key × PyValue Key Scalar) → List (Key × PyValue Key Scalar)
  | [] => []
  | (key, item) :: items => (key, if redacts keyText key then .str redacted else scrubData item) :: scrubEntries items

/-- The items of a list or of a tuple. -/
def scrubItems : List (PyValue Key Scalar) → List (PyValue Key Scalar)
  | [] => []
  | item :: items => scrubData item :: scrubItems items

end

@[simp] theorem scrubItems_append (left right : List (PyValue Key Scalar)) :
    scrubItems isalnum keyText (left ++ right) = scrubItems isalnum keyText left ++ scrubItems isalnum keyText right := by
  induction left with
  | nil => simp [scrubItems]
  | cons item left ih => simp [scrubItems, ih]

@[simp] theorem scrubEntries_append (left right : List (Key × PyValue Key Scalar)) :
    scrubEntries isalnum keyText (left ++ right) =
      scrubEntries isalnum keyText left ++ scrubEntries isalnum keyText right := by
  induction left with
  | nil => simp [scrubEntries]
  | cons entry left ih => simp [scrubEntries, ih]

end Data

/-- The place of one value in a nested value. -/
inductive ScrubContext (Key Scalar : Type) where
  | here
  | item (left : List (PyValue Key Scalar)) (inner : ScrubContext Key Scalar) (right : List (PyValue Key Scalar))
  | element (left : List (PyValue Key Scalar)) (inner : ScrubContext Key Scalar) (right : List (PyValue Key Scalar))
  | entry (left : List (Key × PyValue Key Scalar)) (key : Key) (inner : ScrubContext Key Scalar)
      (right : List (Key × PyValue Key Scalar))

namespace ScrubContext

variable {Key Scalar : Type}

/-- The nested value, with this value at the place. -/
def fill : ScrubContext Key Scalar → PyValue Key Scalar → PyValue Key Scalar
  | here, value => value
  | item left inner right, value => .list (left ++ inner.fill value :: right)
  | element left inner right, value => .tuple (left ++ inner.fill value :: right)
  | entry left key inner right, value => .dict (left ++ (key, inner.fill value) :: right)

/-- The place is in an entry that is replaced as a whole. -/
def Redacted (keyText : Key → String) : ScrubContext Key Scalar → Prop
  | here => False
  | item _ inner _ => inner.Redacted keyText
  | element _ inner _ => inner.Redacted keyText
  | entry _ key inner _ => redacts keyText key = true ∨ inner.Redacted keyText

/-- **A string shows in the scrubbed value** as it is scrubbed by itself, unless its place is in an entry that is
replaced. -/
theorem scrubData_fill_eq_iff (isalnum : Char → Bool) (keyText : Key → String) (place : ScrubContext Key Scalar)
    (text text' : String) :
    scrubData isalnum keyText (place.fill (.str text)) = scrubData isalnum keyText (place.fill (.str text')) ↔
      place.Redacted keyText ∨ scrubString isalnum text = scrubString isalnum text' := by
  induction place with
  | here => simp [fill, scrubData, Redacted]
  | item left inner right ih => simp [fill, scrubData, scrubItems, Redacted, ih]
  | element left inner right ih => simp [fill, scrubData, scrubItems, Redacted, ih]
  | entry left key inner right ih =>
      by_cases hkey : redacts keyText key = true
      · simp [fill, scrubData, scrubEntries, Redacted, hkey]
      · simp [fill, scrubData, scrubEntries, Redacted, hkey, ih]

end ScrubContext

end GpuInference
