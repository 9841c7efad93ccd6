import PathExpr.TokenTable
import PathExpr.Token.Wire

namespace PathExpr.Tour

def line (text : Text) : Text := text ++ ['\n']

def gap : Text := ['\n']

def shown (path : Text) (view : TokenizedPath → Text) : Text :=
  match tokenize {} path with
  | .ok tokenized => view tokenized
  | .error failure => failure.message

def arrow : Text := " → ".toList

def splitting : Text :=
  let path : Text := "$.store.book[0].title".toList
  line "1) split_path — dot and bracket access".toList ++
    line ("   ".toList ++ path.literal ++ arrow ++ shown path (Text.literals ·.fragments)) ++ gap

def rooting : Text :=
  line "2) PathTokenizer — relative path".toList ++
    line (shown "store.book".toList fun tokenized =>
      "   path=".toList ++ tokenized.path.literal ++ "  fragments=".toList ++
        Text.literals tokenized.fragments) ++ gap

def notations : Text :=
  ["$..author".toList,"$.store.book[?(@.price<10)]".toList,"$['store']['book'][*]".toList].flatMap
    (fun path => line ("3) ".toList ++ Text.padRight 35 path.literal ++ arrow ++
      shown path (Text.literals ·.fragments))) ++ gap

def table : Text :=
  line "4) describe — root / end / array flags".toList ++
    line (shown "$.store.book[0].title".toList TokenTable.text)

def wire : Text :=
  line "5) tokens_adapter.dump_json — escaped dot kept in one fragment".toList ++
    line ("   ".toList ++ shown "$.config.a\\.b[1]".toList (Token.writeList ·.tokens)) ++ gap

def refused (path : Text) : Text :=
  match tokenize {} path with
  | .error (.unusable used fault) =>
    line ("6) ".toList ++ Text.padRight 8 path.literal ++ arrow ++ fault.className ++
      ": ".toList ++ fault.message used)
  | _ => []

def refusals : Text := ["$[".toList,"foo(".toList,"$...a".toList].flatMap refused

def text : Text := splitting ++ rooting ++ notations ++ table ++ wire ++ refusals

end PathExpr.Tour
