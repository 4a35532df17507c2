/-!
# Text as it is shown

A terminal does not show every character of a text: a control character is an order
to it, and the escape character begins an order of several characters, which may
carry a text of its own.  A text that comes from outside is freed of all orders
before it is shown, so that it can neither move the cursor nor hide a line.  Blanks
and line ends stay, for they only place what is shown.

* `shown` — a text without the orders in it.

An order that is never finished takes everything after it with it.  Of the short
orders, those without a text, a line end or a tab interrupts every one that it meets:
from there on the text is shown, and the order goes on where the next control character
stands, unless a character outside of ASCII came first.
-/

namespace SeedPhrase.Text

/-- Whether a character only places what is shown: a tab, a line feed, a form feed or
a carriage return. -/
def isLayout (c : Char) : Bool :=
  c = '\t' || c = '\n' || c = '\x0c' || c = '\r'

/-- Whether a character is shown where no order is open: all but the control
characters that are not layout. -/
def isShown (c : Char) : Bool :=
  isLayout c || (' ' ≤ c && c ≠ '\x7f')

/-- The order that is open at a place of a text. -/
inductive Order
  /-- None is. -/
  | none
  /-- Only the escape character was read. -/
  | escape
  /-- An order of a few characters, whose last is a digit, a letter or a sign. -/
  | short
  /-- An order with parameters, which a letter or a sign ends. -/
  | control
  /-- An order to the operating system, with a text that the bell ends. -/
  | system
  /-- An order to a device, of which nothing is read yet. -/
  | device
  /-- An order to a device, in its parameters. -/
  | deviceParameters
  /-- An order to a device, between its parameters and its text. -/
  | deviceIntermediates
  /-- The text of an order that a string terminator ends. -/
  | body
deriving DecidableEq, Repr

namespace Order

/-- The byte that ends the text of an order, even as a part of a character. -/
def stringTerminator : UInt8 := 0x9c

/-- The order that a character begins behind the escape character. -/
def begun (c : Char) : Order :=
  if c = '[' then control
  else if c = ']' then system
  else if c = 'P' then device
  else if c = 'X' ∨ c = '^' ∨ c = '_' then body
  else if ' ' ≤ c ∧ c ≤ '/' then short
  else if '0' ≤ c ∧ c ≤ '~' then none
  else escape

/-- The order that is open after one more character of an order, when that character
is neither the escape character nor one that cancels all orders. -/
def continued : Order → Char → Order
  | none, _ => none
  | escape, c => begun c
  | short, c => if '0' ≤ c ∧ c ≤ '~' then none else short
  | control, c => if '@' ≤ c ∧ c ≤ '~' then none else control
  | system, c => if c = '\x07' then none else system
  | device, c =>
    if ' ' ≤ c ∧ c ≤ '/' then deviceIntermediates
    else if '0' ≤ c ∧ c ≤ '?' then deviceParameters
    else if '@' ≤ c ∧ c ≤ '~' then body
    else device
  | deviceParameters, c =>
    if ' ' ≤ c ∧ c ≤ '/' then deviceIntermediates
    else if '0' ≤ c ∧ c ≤ ';' then deviceParameters
    else if '<' ≤ c ∧ c ≤ '~' then body
    else deviceParameters
  | deviceIntermediates, c => if '0' ≤ c ∧ c ≤ '~' then body else deviceIntermediates
  | body, c => if stringTerminator ∈ String.utf8EncodeChar c then none else body

/-- Whether layout interrupts an order and is shown. -/
def yieldsToLayout : Order → Bool
  | none | escape | short | control => true
  | system | device | deviceParameters | deviceIntermediates | body => false

/-- The order that is open after a character that is not shown. -/
def after (order : Order) (c : Char) : Order :=
  if c = '\x1b' then escape
  else if c = '\x18' ∨ c = '\x1a' then none
  else order.continued c

end Order

/-- What a terminal is about at a place of a text. -/
structure Terminal where
  order : Order
  /-- Whether the order is interrupted. -/
  isInterrupted : Bool
deriving DecidableEq, Repr

namespace Terminal

/-- A terminal without any order. -/
def idle : Terminal := ⟨.none, false⟩

/-- Whether a character is shown. -/
def shows (terminal : Terminal) (c : Char) : Bool :=
  if terminal.order = .none || terminal.isInterrupted then isShown c
  else terminal.order.yieldsToLayout && isLayout c

/-- A terminal after a character.  One that is shown leaves the order for later, and ends
it for good if it is outside of ASCII. -/
def after (terminal : Terminal) (c : Char) : Terminal :=
  if terminal.shows c then ⟨if c.toNat < 0x80 then terminal.order else .none, true⟩
  else ⟨terminal.order.after c, false⟩

end Terminal

/-- What a terminal shows of a text. -/
def shownBy : Terminal → List Char → List Char
  | _, [] => []
  | terminal, c :: cs =>
    if terminal.shows c then c :: shownBy (terminal.after c) cs
    else shownBy (terminal.after c) cs

/-- A text without the orders in it. -/
def shown (cs : List Char) : List Char := shownBy .idle cs

end SeedPhrase.Text
