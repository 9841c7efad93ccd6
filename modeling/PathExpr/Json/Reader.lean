import PathExpr.Json.Lexeme

-- Reading is a run of lexemes over a stack of what is still open. Every step is
-- forced by the place it is made in, and a text is readable when the run ends
-- behind one whole value.
namespace PathExpr.Json

inductive Frame where
  | array (items : List Json)
  | object (fields : List (Text × Json)) (key : Text)

inductive Place where
  | value (frames : List Frame)
  | firstItem (frames : List Frame)
  | firstKey (frames : List Frame)
  | key (fields : List (Text × Json)) (frames : List Frame)
  | colon (fields : List (Text × Json)) (key : Text) (frames : List Frame)
  | behind (json : Json) (frames : List Frame)

namespace Place

def opened (frames : List Frame) : Lexeme → Option Place
  | .scalar json => some (.behind json frames)
  | .string text => some (.behind (.string text) frames)
  | .openArray => some (.firstItem frames)
  | .openObject => some (.firstKey frames)
  | _ => none

def step : Place → Lexeme → Option Place
  | value frames,lexeme => opened frames lexeme
  | firstItem frames,.closeArray => some (.behind (.array []) frames)
  | firstItem frames,lexeme => opened (.array [] :: frames) lexeme
  | firstKey frames,.closeObject => some (.behind (.object []) frames)
  | firstKey frames,.string text => some (.colon [] text frames)
  | key fields frames,.string text => some (.colon fields text frames)
  | colon fields name frames,.colon => some (.value (.object fields name :: frames))
  | behind json (.array items :: frames),.comma => some (.value (.array (json :: items) :: frames))
  | behind json (.array items :: frames),.closeArray =>
    some (.behind (.array (json :: items).reverse) frames)
  | behind json (.object fields name :: frames),.comma => some (.key ((name,json) :: fields) frames)
  | behind json (.object fields name :: frames),.closeObject =>
    some (.behind (.object ((name,json) :: fields).reverse) frames)
  | _,_ => none

def run : Place → List Lexeme → Option Place
  | place,[] => some place
  | place,lexeme :: lexemes => (place.step lexeme).bind (run · lexemes)

def whole? : Place → Option Json
  | behind json [] => some json
  | _ => none

end Place

def read? (text : Text) : Option Json :=
  (Lexeme.all? text).bind fun lexemes => (Place.run (.value []) lexemes).bind Place.whole?

def deepest : Nat := 200

def document? (text : Text) : Option Json := (read? text).filter (depth · ≤ deepest)

end PathExpr.Json
