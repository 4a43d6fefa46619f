/-!
# Character classes of Ruby text

- *Blank* characters are the ASCII white-space characters: tab, line feed, vertical tab,
  form feed, carriage return and space. Other Unicode spaces, such as U+00A0 or U+3000, are
  name characters, as are all characters beyond ASCII.
- *Name* characters are all characters except control characters (below U+0020), blanks, and the
  punctuation ``: ; ` " ' @ $ # . , | ^ & < = > + - * / \ % ? ! ~ ( ) [ ] { }``.
- A *lower start* is a name character other than an ASCII capital or digit: it starts an
  identifier. An ASCII capital starts a constant.
-/

namespace RubyCheck.Ruby

/-- The ASCII white-space characters. -/
def isBlank (c : Char) : Bool :=
  let n := c.toNat
  (0x09 ≤ n && n ≤ 0x0D) || n == 0x20

/-- The punctuation characters, which end a name. -/
def punctuation : List Char :=
  [':', ';', '`', '"', '\'', '@', '$', '#', '.', ',', '|', '^', '&', '<', '=', '>', '+', '-',
    '*', '/', '\\', '%', '?', '!', '~', '(', ')', '[', ']', '{', '}']

/-- Characters that may appear in a name. -/
def isNameChar (c : Char) : Bool :=
  0x20 ≤ c.toNat && !isBlank c && !punctuation.contains c

/-- Characters that start an identifier. -/
def isLowerStart (c : Char) : Bool := isNameChar c && !c.isUpper && !c.isDigit

/-- Characters that start the name of an instance, class or global variable. -/
def isAlphaStart (c : Char) : Bool := isNameChar c && !c.isDigit

/-- Control characters other than the blanks, which no token contains. -/
def isControl (c : Char) : Bool := c.toNat < 0x20 && !isBlank c

/-- Whether a character is an ASCII hexadecimal digit. -/
def isHexDigit (c : Char) : Bool :=
  c.isDigit || ('a' ≤ c && c ≤ 'f') || ('A' ≤ c && c ≤ 'F')

/-- Whether a character is an ASCII octal digit. -/
def isOctDigit (c : Char) : Bool := '0' ≤ c && c ≤ '7'

/-- Whether a character is a binary digit. -/
def isBinDigit (c : Char) : Bool := c == '0' || c == '1'

end RubyCheck.Ruby
