import RubyCheck.Ruby.Reader.Tie
import RubyCheck.Ruby.Lower

/-!
# Parsing Ruby text

**From text to the syntax tree and its error messages.**

The reader works on the characters of the text; the tree counts UTF-8 bytes. `concreteTree`
reads the concrete tree and moves every position from characters to bytes. `parseWith` lowers the
tree any reader gives, and `parse` is `parseWith` with this one.
-/

namespace RubyCheck.Ruby

open RubyCheck.Source

/-- The byte offset of each character position of a text, the end included. -/
def byteOffsets (chars : Array Char) : Array Nat :=
  chars.foldl (fun acc c => acc.push (acc.back?.getD 0 + c.utf8Size)) #[0]

/-- A tree with each position moved by `f`. -/
def Cst.mapPositions (f : Nat → Nat) : Cst → Cst
  | .mk t n fl m a b cs =>
    .mk t n fl m (f a) (f b) (cs.attach.map fun ⟨c, _⟩ => c.mapPositions f)

/-- The concrete tree of a text, in byte positions. -/
def concreteTree (text : String) : Cst :=
  let chars := text.toList.toArray
  let offsets := byteOffsets chars
  (Input.read { chars }).mapPositions fun i => offsets.getD i (offsets.back?.getD 0)

/-- Parses Ruby text from a source named `name`, reading its concrete tree with `read`. -/
def parseWith (read : String → Cst) (text name : String) : ParseResult :=
  ParseResult.ofCst (Buffer.ofText text name) (read text)

/-- Parses Ruby text from a source named `name`. -/
def parse (text : String) (name : String) : ParseResult :=
  parseWith concreteTree text name

end RubyCheck.Ruby
