import PathExpr.Json.Reader
import PathExpr.Proofs.Json.Lexeme

-- Reading a written value gives it back, unless a number in it is longer than any that
-- is read.
namespace PathExpr.Json

open Lexeme

mutual
def legible : Json → Bool
  | number numeral => numeral.legible
  | array items => legibleItems items
  | object fields => legibleFields fields
  | _ => true
def legibleItems : List Json → Bool
  | [] => true
  | item :: items => item.legible && legibleItems items
def legibleFields : List (Text × Json) → Bool
  | [] => true
  | (_,value) :: fields => value.legible && legibleFields fields
end

mutual
def lexemes : Json → List Lexeme
  | string text => [.string text]
  | array items => .openArray :: (itemLexemes items ++ [.closeArray])
  | object fields => .openObject :: (fieldLexemes fields ++ [.closeObject])
  | json => [.scalar json]
def itemLexemes : List Json → List Lexeme
  | [] => []
  | [item] => item.lexemes
  | item :: items => item.lexemes ++ .comma :: itemLexemes items
def fieldLexemes : List (Text × Json) → List Lexeme
  | [] => []
  | [(key,value)] => .string key :: .colon :: value.lexemes
  | (key,value) :: fields => .string key :: .colon :: (value.lexemes ++ .comma :: fieldLexemes fields)
end

section Unfolding

variable (key : Text) (item next value : Json) (items : List Json) (field : Text × Json)
  (fields : List (Text × Json))

theorem writeItems_cons :
    writeItems (item :: next :: items) = write item ++ ',' :: writeItems (next :: items) := rfl

theorem itemLexemes_cons :
    itemLexemes (item :: next :: items) = item.lexemes ++ .comma :: itemLexemes (next :: items) := rfl

theorem writeFields_single : writeFields [(key,value)] = quote key ++ ':' :: write value := rfl

theorem writeFields_cons : writeFields ((key,value) :: field :: fields) =
    quote key ++ ':' :: (write value ++ ',' :: writeFields (field :: fields)) := rfl

theorem fieldLexemes_cons : fieldLexemes ((key,value) :: field :: fields) =
    .string key :: .colon :: (value.lexemes ++ .comma :: fieldLexemes (field :: fields)) := rfl

end Unfolding

theorem shut_comma (rest : Text) : Shut (',' :: rest) := by
  rintro c ⟨⟩
  exact .inl rfl

theorem shut_bracket (rest : Text) : Shut (']' :: rest) := by
  rintro c ⟨⟩
  exact .inr (.inl rfl)

theorem shut_brace (rest : Text) : Shut ('\x7d' :: rest) := by
  rintro c ⟨⟩
  exact .inr (.inr rfl)

theorem all_key (key rest : Text) :
    all? (quote key ++ ':' :: rest) = told true [.string key,.colon] (all? rest) := by
  rw [all_quote,all_sign rest rfl rfl,told_told]
  rfl

mutual
theorem all_write : (json : Json) → ∀ {rest : Text}, Shut rest →
    all? (write json ++ rest) = told json.legible json.lexemes (all? rest)
  | .null,_,_ => (all_sharp (c := 'n') rfl).trans rfl
  | .bool true,_,_ => (all_sharp (c := 't') rfl).trans rfl
  | .bool false,_,_ => (all_sharp (c := 'f') rfl).trans rfl
  | .number numeral,_,shut => all_numeral numeral shut
  | .string text,rest,_ => all_quote text rest
  | .array items,rest,_ => by
    have inner := all_writeItems items (shut_bracket rest)
    rw [all_sign rest rfl rfl] at inner
    rw [write,List.cons_append,List.append_assoc,List.singleton_append,all_sign _ rfl rfl,inner,told_told,
      told_told,legible,lexemes]
    simp
  | .object fields,rest,_ => by
    have inner := all_writeFields fields (shut_brace rest)
    rw [all_sign rest rfl rfl] at inner
    rw [write,List.cons_append,List.append_assoc,List.singleton_append,all_sign _ rfl rfl,inner,told_told,
      told_told,legible,lexemes]
    simp
theorem all_writeItems : (items : List Json) → ∀ {rest : Text}, Shut rest →
    all? (writeItems items ++ rest) = told (legibleItems items) (itemLexemes items) (all? rest)
  | [],rest,_ => (told_nil (all? rest)).symm
  | [item],rest,shut => by
    rw [writeItems,all_write item shut]
    simp [legibleItems,itemLexemes]
  | item :: next :: items,rest,shut => by
    rw [writeItems_cons,List.append_assoc,List.cons_append,all_write item (shut_comma _),all_sign _ rfl rfl,
      all_writeItems (next :: items) shut,told_told,told_told,itemLexemes_cons]
    simp [legibleItems]
theorem all_writeFields : (fields : List (Text × Json)) → ∀ {rest : Text}, Shut rest →
    all? (writeFields fields ++ rest) = told (legibleFields fields) (fieldLexemes fields) (all? rest)
  | [],rest,_ => (told_nil (all? rest)).symm
  | [(key,value)],rest,shut => by
    rw [writeFields_single,List.append_assoc,List.cons_append,all_key,all_write value shut,told_told]
    simp [legibleFields,fieldLexemes]
  | (key,value) :: next :: fields,rest,shut => by
    rw [writeFields_cons,List.append_assoc,List.cons_append,List.append_assoc,List.cons_append,all_key,
      all_write value (shut_comma _),all_sign _ rfl rfl,all_writeFields (next :: fields) shut,told_told,
      told_told,told_told,fieldLexemes_cons]
    simp [legibleFields]
end

namespace Place

-- The first item is read like any later one: no value starts with a closing bracket.
theorem run_firstItem {items : List Json} (full : items ≠ []) (frames : List Frame) (more : List Lexeme) :
    run (firstItem frames) (itemLexemes items ++ more) =
      run (value (.array [] :: frames)) (itemLexemes items ++ more) := by
  cases items with
  | nil => exact absurd rfl full
  | cons item items => cases items <;> cases item <;> rfl

theorem run_firstKey {fields : List (Text × Json)} (full : fields ≠ []) (frames : List Frame)
    (more : List Lexeme) :
    run (firstKey frames) (fieldLexemes fields ++ more) = run (key [] frames) (fieldLexemes fields ++ more) := by
  cases fields with
  | nil => exact absurd rfl full
  | cons field fields => cases fields <;> rfl

mutual
theorem run_value : (json : Json) → ∀ (frames : List Frame) (more : List Lexeme),
    run (value frames) (json.lexemes ++ more) = run (behind json frames) more
  | .null,_,_ | .bool _,_,_ | .number _,_,_ | .string _,_,_ => rfl
  | .array items,frames,more => by
    have opened : run (value frames) (lexemes (.array items) ++ more) =
        run (firstItem frames) (itemLexemes items ++ .closeArray :: more) := by
      rw [lexemes,List.cons_append,List.append_assoc]
      rfl
    rw [opened]
    by_cases empty : items = []
    · subst empty
      rfl
    · exact (run_firstItem empty frames _).trans (run_items items empty [] frames more)
  | .object fields,frames,more => by
    have opened : run (value frames) (lexemes (.object fields) ++ more) =
        run (firstKey frames) (fieldLexemes fields ++ .closeObject :: more) := by
      rw [lexemes,List.cons_append,List.append_assoc]
      rfl
    rw [opened]
    by_cases empty : fields = []
    · subst empty
      rfl
    · exact (run_firstKey empty frames _).trans (run_fields fields empty [] frames more)
theorem run_items : (items : List Json) → items ≠ [] →
    ∀ (read : List Json) (frames : List Frame) (more : List Lexeme),
      run (value (.array read :: frames)) (itemLexemes items ++ .closeArray :: more) =
        run (behind (.array (read.reverse ++ items)) frames) more
  | [],full,_,_,_ => absurd rfl full
  | [item],_,read,frames,more => by
    have closed : run (behind item (.array read :: frames)) (.closeArray :: more) =
        run (behind (.array (item :: read).reverse) frames) more := rfl
    rw [itemLexemes,run_value item,closed,List.reverse_cons]
  | item :: next :: items,_,read,frames,more => by
    have later := run_items (next :: items) (List.cons_ne_nil _ _) (item :: read) frames more
    have parted (more : List Lexeme) : run (behind item (.array read :: frames)) (.comma :: more) =
        run (value (.array (item :: read) :: frames)) more := rfl
    rw [itemLexemes_cons,List.append_assoc,List.cons_append,run_value item,parted,later]
    simp
theorem run_fields : (fields : List (Text × Json)) → fields ≠ [] →
    ∀ (read : List (Text × Json)) (frames : List Frame) (more : List Lexeme),
      run (key read frames) (fieldLexemes fields ++ .closeObject :: more) =
        run (behind (.object (read.reverse ++ fields)) frames) more
  | [],full,_,_,_ => absurd rfl full
  | [(name,json)],_,read,frames,more => by
    have named (more : List Lexeme) : run (key read frames) (.string name :: .colon :: more) =
        run (value (.object read name :: frames)) more := rfl
    have closed : run (behind json (.object read name :: frames)) (.closeObject :: more) =
        run (behind (.object ((name,json) :: read).reverse) frames) more := rfl
    rw [fieldLexemes,List.cons_append,List.cons_append,named,run_value json,closed,List.reverse_cons]
  | (name,json) :: next :: fields,_,read,frames,more => by
    have later := run_fields (next :: fields) (List.cons_ne_nil _ _) ((name,json) :: read) frames more
    have named (more : List Lexeme) : run (key read frames) (.string name :: .colon :: more) =
        run (value (.object read name :: frames)) more := rfl
    have parted (more : List Lexeme) : run (behind json (.object read name :: frames)) (.comma :: more) =
        run (key ((name,json) :: read) frames) more := rfl
    rw [fieldLexemes_cons,List.cons_append,List.cons_append,List.append_assoc,List.cons_append,named,
      run_value json,parted,later]
    simp
end

end Place

theorem read_write (json : Json) : read? (write json) = if json.legible then some json else none := by
  have ending : Shut [] := by
    rintro c ⟨⟩
  have finished : all? [] = some [] := all_blank rfl
  have lexed := all_write json ending
  have passed := Place.run_value json [] []
  rw [List.append_nil,finished] at lexed
  rw [List.append_nil] at passed
  rw [read?,lexed]
  cases json.legible with
  | false => rfl
  | true =>
    simp only [told,if_true,Option.map_some,List.append_nil,Option.bind_some,passed]
    rfl

theorem document_write {json : Json} (shallow : json.depth ≤ deepest) :
    document? (write json) = if json.legible then some json else none := by
  rw [document?,read_write]
  cases json.legible with
  | false => rfl
  | true => simp [shallow]

end PathExpr.Json
