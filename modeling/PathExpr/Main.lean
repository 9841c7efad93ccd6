import PathExpr.Tour

def main : IO Unit := IO.print (String.ofList PathExpr.Tour.text)
