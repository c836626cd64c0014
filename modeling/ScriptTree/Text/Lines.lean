/-! The lines of a text. A line break ends a line and takes one carriage return
before it along; after a last line break there is no empty line. Any other
carriage return is a character of its line. -/
namespace ScriptTree

/-- Drops one carriage return from the end of a line, whose characters come
backwards. -/
def endLine : List Char → List Char
  | '\r' :: cs => cs.reverse
  | cs => cs.reverse

/-- The lines found so far come backwards, and so does the line that is being
read. -/
def linesFrom (done : List (List Char)) (current : List Char) : List Char → List (List Char)
  | [] => if current.isEmpty then done.reverse else (current.reverse :: done).reverse
  | c :: cs =>
    if c = '\n' then linesFrom (endLine current :: done) [] cs
    else linesFrom done (c :: current) cs

def lines (text : String) : List String :=
  (linesFrom [] [] text.toList).map String.ofList

/-- The characters of a text without its line breaks. What was kept so far
comes backwards. -/
def dropBreaks (kept : List Char) : List Char → List Char
  | [] => kept.reverse
  | c :: cs =>
    if c = '\n' || c = '\r' && cs.head? = some '\n' then dropBreaks kept cs
    else dropBreaks (c :: kept) cs

def withoutBreaks (text : String) : List Char :=
  dropBreaks [] text.toList

end ScriptTree
