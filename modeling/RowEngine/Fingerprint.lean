import RowEngine.Blake3
import RowEngine.Error
import RowEngine.Json.Printer

/-!
Fingerprints: 32-byte content hashes that stay the same from one run to the next. The
hashed bytes are a domain tag, a zero byte and the payload, so equal payloads of
different kinds differ.
-/
namespace RowEngine

structure Fingerprint where
  bytes : List UInt8
  length_bytes : bytes.length = 32
  deriving DecidableEq, Repr

namespace Fingerprint

/-- The bytes that are hashed for a payload under a domain tag. -/
def preimage (domain : String) (payload : List UInt8) : List UInt8 :=
  domain.toUTF8.toList ++ 0 :: payload

def ofBytes (domain : String) (payload : List UInt8) : Fingerprint :=
  ⟨Blake3.hash (preimage domain payload), Blake3.length_hash _⟩

/-- The fingerprint of a document is that of its compact text. -/
def ofJson (domain : String) (j : Json) : Fingerprint :=
  ofBytes domain j.print.toUTF8.toList

/-- A map whose keys are lists of numbers has a JSON form only when it is empty. -/
def ofListMap (domain : String) (entries : List (List Int × Int)) : Except Error Fingerprint :=
  if entries.isEmpty then .ok (ofJson domain (.obj [])) else .error (.hash .keyNotString)

/-- Two lower-case hexadecimal digits. -/
def hexByte (b : UInt8) : List Char :=
  [Json.hexDigit (b.toNat / 16), Json.hexDigit (b.toNat % 16)]

def display (f : Fingerprint) : String := String.ofList (f.bytes.flatMap hexByte)

/-- The first eight digits, for log lines. -/
def short (f : Fingerprint) : String := String.ofList ((f.bytes.take 4).flatMap hexByte)

end Fingerprint

end RowEngine
