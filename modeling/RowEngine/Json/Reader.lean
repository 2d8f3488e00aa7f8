import RowEngine.Json.Token

/-!
Reading a document from its tokens. The reader walks the tokens once and keeps the
arrays and objects that it is inside of on a stack, innermost first, so it goes as
deep as the text does.
-/
namespace RowEngine.Json

/-- An array or object part way through: what has been read of it, last item first. -/
inductive Frame where
  | items (done : List Json)
  | members (done : List (Option String × Json)) (key : Option String)

/-- What the next token may be. -/
inductive Expecting where
  /-- A value. -/
  | value
  /-- The first item of an array, or its end. -/
  | firstItem
  /-- The first key of an object, or its end. -/
  | firstKey
  /-- The key of a further member. -/
  | key (done : List (Option String × Json))
  /-- The colon after a key. -/
  | colon (done : List (Option String × Json)) (key : Option String)
  /-- A comma or an end, after a complete value. -/
  | separator (value : Json)

structure Reader where
  expecting : Expecting
  frames : List Frame

namespace Reader

def initial : Reader := ⟨.value, []⟩

/-- A value begins with this token. -/
def begin? (frames : List Frame) : Token → Option Reader
  | .scalar j => some ⟨.separator j, frames⟩
  | .leftBracket => some ⟨.firstItem, frames⟩
  | .leftBrace => some ⟨.firstKey, frames⟩
  | _ => none

/-- Takes one token. -/
def step? (r : Reader) (t : Token) : Option Reader :=
  match r.expecting with
  | .value => begin? r.frames t
  | .firstItem =>
      match t with
      | .rightBracket => some ⟨.separator (.arr []), r.frames⟩
      | t => begin? (.items [] :: r.frames) t
  | .firstKey =>
      match t with
      | .rightBrace => some ⟨.separator (.obj []), r.frames⟩
      | .scalar (.str k) => some ⟨.colon [] k, r.frames⟩
      | _ => none
  | .key done =>
      match t with
      | .scalar (.str k) => some ⟨.colon done k, r.frames⟩
      | _ => none
  | .colon done k =>
      match t with
      | .colon => some ⟨.value, .members done k :: r.frames⟩
      | _ => none
  | .separator j =>
      match r.frames, t with
      | .items done :: rest, .comma => some ⟨.value, .items (j :: done) :: rest⟩
      | .items done :: rest, .rightBracket =>
          some ⟨.separator (.arr (j :: done).reverse), rest⟩
      | .members done k :: rest, .comma => some ⟨.key ((k, j) :: done), rest⟩
      | .members done k :: rest, .rightBrace =>
          some ⟨.separator (.obj ((k, j) :: done).reverse), rest⟩
      | _, _ => none

/-- Takes tokens in order. -/
def run? (r : Reader) : List Token → Option Reader
  | [] => some r
  | t :: rest =>
      match r.step? t with
      | some r' => r'.run? rest
      | none => none

/-- The document, once it is complete. -/
def result? (r : Reader) : Option Json :=
  match r.expecting, r.frames with
  | .separator j, [] => some j
  | _, _ => none

end Reader

/-- Reads one document, with nothing but blanks around it. -/
def read? (text : String) : Option Json := do
  let ts ← tokens? text.toList
  let r ← Reader.initial.run? ts
  r.result?

end RowEngine.Json
