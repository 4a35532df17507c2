import SeedPhrase.Pattern.Group
import SeedPhrase.Pattern.Machine

/-!
# What a written pattern means

A written pattern has a meaning only if it can be decided with what is known here
about characters.  Of ASCII everything is known.  Of the other scripts the characters
are known one by one, but there are no tables of their letters, digits and blanks,
of small and capital forms, or of properties.  So a pattern that needs such a table
is refused, unless it confines itself to ASCII by the flag `-u`; and where it does,
it may not turn to bytes that are no characters.

A pattern is refused also if the machine for it would be too large.

* `ClassSet.meaning`, `Node.meaning` — the set or pattern that is meant;
* `Pattern.ofString` — a pattern from its written form, or why it is refused;
* `Refusal.message` — the refusal in words.
-/

namespace SeedPhrase.Pattern

/-- The flags that hold at a place of a pattern. -/
structure Modes where
  anyCase : Bool
  multiLine : Bool
  dotAll : Bool
  crlf : Bool
  swapGreed : Bool
  unicode : Bool
deriving DecidableEq, Repr

namespace Modes

/-- The flags that hold at the beginning. -/
def start : Modes := ⟨false, false, false, false, false, true⟩

/-- The flags after one of them is set. -/
def set (modes : Modes) : Flag × Bool → Modes
  | (.anyCase, on) => { modes with anyCase := on }
  | (.multiLine, on) => { modes with multiLine := on }
  | (.dotAll, on) => { modes with dotAll := on }
  | (.crlf, on) => { modes with crlf := on }
  | (.unicode, on) => { modes with unicode := on }
  | (.swapGreed, on) => { modes with swapGreed := on }
  | (.spaced, _) => modes

/-- The flags after several of them are set. -/
def apply (modes : Modes) (settings : Settings) : Modes := settings.foldl set modes

end Modes

/-- What is wrong with a literal where only ASCII is known: a byte beyond it is no
character. -/
def Literal.asciiFault? (literal : Literal) : Option Fault :=
  if literal.asByte ∧ 0x7f < literal.char.toNat then some ⟨.noCharacter, literal.span, none⟩
  else none

/-- A literal in a class of ASCII characters. -/
def Literal.inAscii (literal : Literal) : Except Fault Char :=
  match literal.asciiFault? with
  | some fault => .error fault
  | none =>
    if literal.char.toNat ≤ 0x7f then .ok literal.char
    else .error ⟨.beyondBytes, literal.span, none⟩

/-- The name of a property as it is looked up: without the word `is` in front, without
separators, and in small ASCII letters. -/
def plainName (name : List Char) : List Char :=
  let bare := if (name.take 2).map Char.toLower = ['i', 's'] then name.drop 2 else name
  (bare.filter fun c => c.toNat < 0x80 && c ≠ ' ' && c ≠ '_' && c ≠ '-').map Char.toLower

/-- Why a property is refused: there are no properties, and the three names that are
values of a property before they are names of one have no such value. -/
def propertyFault (name : List Char) : Fault.Kind :=
  if plainName name = ['c', 'f'] ∨ plainName name = ['s', 'c'] ∨ plainName name = ['l', 'c'] then
    .propertyValueUnknown
  else
    .propertyUnknown

namespace ClassSet

/-- A set of ASCII characters under the flags: any case of its letters if that is
wanted, and never the characters outside of it, for those include bytes that are no
characters. -/
def asciiSet (modes : Modes) (span : Span) (negated : Bool) (set : CharSet) :
    Except Fault CharSet :=
  if negated then .error ⟨.noCharacter, span, none⟩
  else .ok (if modes.anyCase then set.anyCase else set)

mutual

/-- Whether an item names characters or ranges directly, and not in a class of its
own. -/
def listsChars : ClassSet → Bool
  | .char _ => true
  | .range _ _ _ => true
  | .union _ items => anyListsChars items
  | _ => false

/-- Whether one of several items names characters or ranges directly. -/
def anyListsChars : List ClassSet → Bool
  | [] => false
  | item :: items => item.listsChars || anyListsChars items

end

/-- Of an item in any case, among the characters of all scripts: it is known only if it
names no characters. -/
def requireCase (modes : Modes) (span : Span) (set : ClassSet) : Except Fault Unit :=
  if modes.anyCase && set.listsChars then .error ⟨.caseUnknown, span, none⟩ else .ok ()

/-- Two sets joined. -/
def joined : SetOperation → CharSet → CharSet → CharSet
  | .intersection => CharSet.intersection
  | .difference => CharSet.difference
  | .symmetricDifference => CharSet.symmetricDifference

mutual

/-- The set of characters that an item of a class means. -/
def meaning (modes : Modes) : ClassSet → Except Fault CharSet
  | .char literal => do
    if modes.unicode then return .single literal.char
    else return .single (← literal.inAscii)
  | .range _ first last => do
    if modes.unicode then return ⟨[⟨first.char, last.char⟩]⟩
    else return ⟨[⟨← first.inAscii, ← last.inAscii⟩]⟩
  | .named span negated name => do
    if modes.unicode then
      if modes.anyCase then throw ⟨.caseUnknown, span, none⟩
      return if negated then name.charSet.complement else name.charSet
    else
      asciiSet modes span negated name.charSet
  | .shorthand span negated name =>
    if modes.unicode then .error ⟨.shorthandUnknown, span, none⟩
    else asciiSet modes span negated name.asciiClass.charSet
  | .property span name =>
    if modes.unicode then .error ⟨propertyFault name, span, none⟩
    else .error ⟨.beyondBytes, span, none⟩
  | .bracketed span negated set => do
    let inner := CharSet.unions [← set.meaning modes]
    if modes.unicode then
      requireCase modes span set
      return if negated then inner.complement else inner
    else
      asciiSet modes span negated inner
  | .union _ items => return .unions (← meanings modes items)
  | .operation _ kind left right => do
    let lower := CharSet.unions [← left.meaning modes]
    let upper := CharSet.unions [← right.meaning modes]
    if modes.unicode then
      requireCase modes right.span right
      requireCase modes left.span left
      return joined kind lower upper
    else
      return joined kind (← asciiSet modes left.span false lower)
        (← asciiSet modes right.span false upper)

/-- The sets that several items mean. -/
def meanings (modes : Modes) : List ClassSet → Except Fault (List CharSet)
  | [] => return []
  | item :: items => return (← item.meaning modes) :: (← meanings modes items)

end

end ClassSet

namespace Anchor

/-- The assertion that is meant under given flags. -/
def assertion (modes : Modes) : Anchor → Assertion
  | lineStart =>
    if !modes.multiLine then .textStart else if modes.crlf then .anyLineStart else .lineStart
  | lineEnd =>
    if !modes.multiLine then .textEnd else if modes.crlf then .anyLineEnd else .lineEnd
  | textStart => .textStart
  | textEnd => .textEnd
  | wordBoundary => .wordBoundary
  | noWordBoundary => .noWordBoundary
  | wordStart => .wordStart
  | wordEnd => .wordEnd
  | wordStartHalf => .wordStartHalf
  | wordEndHalf => .wordEndHalf

/-- Whether it is about words. -/
def isAboutWords : Anchor → Bool
  | lineStart | lineEnd | textStart | textEnd => false
  | wordBoundary | noWordBoundary | wordStart | wordEnd | wordStartHalf | wordEndHalf => true

/-- What an assertion means. -/
def meaning (modes : Modes) (anchor : Anchor) : Pattern :=
  .check (anchor.assertion modes) (modes.unicode && anchor.isAboutWords)

end Anchor

/-- What a literal means outside of classes. -/
def Literal.meaning (modes : Modes) (literal : Literal) : Except Fault Pattern :=
  if modes.unicode then
    if modes.anyCase then .error ⟨.caseUnknown, literal.span, none⟩
    else .ok (.text [literal.char])
  else
    match literal.asciiFault? with
    | some fault => .error fault
    | none =>
      let set := CharSet.single literal.char
      .ok (.ofSet (if modes.anyCase then set.anyCase else set) true)

/-- The characters that the dot does not mean. -/
def undotted (modes : Modes) : CharSet :=
  if modes.dotAll then .nothing
  else if modes.crlf then .unions [.single '\n', .single '\r']
  else .single '\n'

namespace Node

mutual

/-- What a part of a written pattern means; the flags go from part to part, and a group
leaves them as it found them. -/
def meaning : Node → StateT Modes (Except Fault) Pattern
  | .empty _ => return .empty
  | .flags _ settings => do
    modify (·.apply settings)
    return .empty
  | .char literal => do
    return (← literal.meaning (← get))
  | .dot span => do
    let modes ← get
    if modes.unicode then return .ofSet (undotted modes).complement false
    else throw ⟨.noCharacter, span, none⟩
  | .anchor _ asked => return asked.meaning (← get)
  | .oneOf set => do
    let modes ← get
    return .ofSet (← set.meaning modes) (!modes.unicode)
  | .repetition _ body least most isLazy => do
    let body ← body.meaning
    return .repeated body least most (isLazy ^^ (← get).swapGreed)
  | .group _ number settings body => do
    let modes ← get
    set (modes.apply settings)
    let inner ← body.meaning
    set modes
    return match number with
    | some number => .group number inner
    | none => inner
  | .alternation _ branches => return .alternation (← meanings branches)
  | .sequence _ nodes => return .sequence (← meanings nodes)

/-- What several parts mean, one behind another. -/
def meanings : List Node → StateT Modes (Except Fault) (List Pattern)
  | [] => return []
  | node :: nodes => return (← node.meaning) :: (← meanings nodes)

end

end Node

/-- Why a pattern is refused. -/
inductive Refusal
  /-- A part of it is at fault. -/
  | fault (fault : Fault)
  | tooLarge
  /-- It asks for words of all scripts. -/
  | needsLetters
deriving DecidableEq, Repr

/-- A refusal of a pattern in words. -/
def Refusal.message (pattern : String) : Refusal → String
  | fault found => found.display pattern
  | tooLarge => "Compiled regex exceeds size limit of " ++ toString Machine.sizeLimit ++ " bytes."
  | needsLetters => "error building NFA"

/-- A pattern, or why it is refused.  The machine that reads forward comes first, then the
question of words, and last the machine that reads back. -/
def admitted (pattern : Pattern) : Except Refusal Pattern :=
  if pattern.isTooLarge .forward then .error .tooLarge
  else if pattern.asksAllScripts then .error .needsLetters
  else if pattern.isTooLarge .backward then .error .tooLarge
  else .ok pattern

/-- A pattern from its written form, or why it is refused. -/
def ofString (written : String) : Except Refusal Pattern :=
  match Node.ofPattern written.toList with
  | .error fault => .error (.fault fault)
  | .ok node =>
    match node.meaning.run .start with
    | .error fault => .error (.fault fault)
    | .ok (pattern, _) => admitted pattern

end SeedPhrase.Pattern
