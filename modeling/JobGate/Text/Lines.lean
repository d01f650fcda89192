/-
Text divided into lines.

A line ends at a line feed.  One carriage return before it belongs to the line
break, and a text that ends in a line feed has no further empty line after it.
-/

namespace JobGate
namespace Text

/-- A line without the one carriage return that may end it. -/
def dropReturn (line : List Char) : List Char :=
  match line.reverse with
  | '\r' :: rest => rest.reverse
  | _ => line

/-- Cuts at line feeds.  `line` is the line read so far and `done` the lines
before it, both backwards. -/
def linesFrom (line : List Char) (done : List (List Char)) : List Char → List (List Char)
  | [] => (if line.isEmpty then done else dropReturn line.reverse :: done).reverse
  | c :: cs =>
    if c = '\n' then linesFrom [] (dropReturn line.reverse :: done) cs
    else linesFrom (c :: line) done cs

def lines (cs : List Char) : List (List Char) := linesFrom [] [] cs

end Text
end JobGate
