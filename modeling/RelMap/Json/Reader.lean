import RelMap.Json.Token

/-!
Reading JSON text: the tokens build the document on a stack of the arrays and objects that are
still open.
-/
namespace RelMap.Json

/-- An array or object that is still open. -/
inductive Frame where
  /-- An array, its items in reverse. -/
  | items (done : List Json)
  | entries (done : List (String × Json))
  /-- An object that waits for the value of a key. -/
  | entry (done : List (String × Json)) (key : String)

/-- What the next token must be. -/
inductive Need where
  | value
  | itemOrEnd
  | keyOrEnd
  | key
  | colon (key : String)
  | separator
  | nothing (document : Json)

structure Reading where
  stack : List Frame
  need : Need

/-- Arrays and objects may not nest this deep. -/
def nestingLimit : Nat := 128

/-- Puts a finished value where it belongs. -/
def place? (value : Json) : List Frame → Option Reading
  | [] => some ⟨[], .nothing value⟩
  | .items done :: stack => some ⟨.items (value :: done) :: stack, .separator⟩
  | .entry done key :: stack => some ⟨.entries (insertEntry key value done) :: stack, .separator⟩
  | .entries _ :: _ => none

def open? (stack : List Frame) (frame : Frame) (need : Need) : Option Reading :=
  if stack.length + 1 < nestingLimit then some ⟨frame :: stack, need⟩ else none

def Need.takesValue : Need → Bool
  | .value => true
  | .itemOrEnd => true
  | _ => false

def Need.takesEnd : Need → Bool
  | .itemOrEnd => true
  | .keyOrEnd => true
  | .separator => true
  | _ => false

def Need.takesKey : Need → Bool
  | .key => true
  | .keyOrEnd => true
  | _ => false

/-- Reads one token. -/
def Reading.step? (r : Reading) : Token → Option Reading
  | .scalar value => if r.need.takesValue then place? value r.stack else none
  | .text value =>
    if r.need.takesValue then place? (.str value) r.stack
    else if r.need.takesKey then some { r with need := .colon value }
    else none
  | .openArray => if r.need.takesValue then open? r.stack (.items []) .itemOrEnd else none
  | .openObject => if r.need.takesValue then open? r.stack (.entries []) .keyOrEnd else none
  | .closeArray =>
    match r.stack with
    | .items done :: stack =>
      if r.need.takesEnd then place? (.arr done.reverse) stack else none
    | _ => none
  | .closeObject =>
    match r.stack with
    | .entries done :: stack => if r.need.takesEnd then place? (.obj done) stack else none
    | _ => none
  | .comma =>
    match r.need, r.stack with
    | .separator, .items _ :: _ => some { r with need := .value }
    | .separator, .entries _ :: _ => some { r with need := .key }
    | _, _ => none
  | .colon =>
    match r.need, r.stack with
    | .colon key, .entries done :: stack => some ⟨.entry done key :: stack, .value⟩
    | _, _ => none

def Reading.run? (r : Reading) : List Token → Option Json
  | [] => match r.need with
    | .nothing document => some document
    | _ => none
  | token :: rest => (r.step? token).bind (·.run? rest)

/-- The document that a text holds. -/
def parse? (text : String) : Option Json := do
  Reading.run? ⟨[], .value⟩ (← tokens? text)

end RelMap.Json
