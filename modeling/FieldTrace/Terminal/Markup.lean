import FieldTrace.Terminal.Action
import FieldTrace.Terminal.Emoji
import FieldTrace.Terminal.Style

/-! # Marked texts

Square brackets can mark styles: `[bold]` opens one and `[/bold]` closes it, `[/]` closes the last
one. A mark may have a parameter after an equals sign, and one whose name begins with `@` gives an
action to the text up to its end. Marks are not shown. A backslash before a mark makes it a part of
the text, and two stand for one. A bracket that opens no mark is a part of the text, without a
backslash before it.

A text can be shown as it is, with all its marks; of two backslashes before a mark both are then
shown, and a single backslash at the end is shown twice. -/

namespace FieldTrace.Terminal

/-! ### Marks -/

/-- Can the character begin a style mark? -/
def beginsMark (c : Char) : Bool := ('a' ≤ c && c ≤ 'z') || c = '#' || c = '/' || c = '@'

/-- The mark that a text begins with, without its brackets, and the text after it. It is closed
before the next bracket opens. -/
def mark? : List Char → Option (List Char × List Char)
  | '[' :: c :: cs =>
    let inside := cs.takeWhile (fun d => d ≠ '[' && d ≠ ']')
    match cs.drop inside.length with
    | ']' :: after => if beginsMark c then some (c :: inside, after) else none
    | _ => none
  | _ => none

/-- The text before the first mark, the mark, and the text after it. -/
def firstMark? : List Char → Option (List Char × List Char × List Char)
  | [] => none
  | c :: cs =>
    match mark? (c :: cs) with
    | some (mark, after) => some ([], mark, after)
    | none => (firstMark? cs).map (fun p => (c :: p.1, p.2))

theorem length_lt_of_mark? {cs mark after : List Char} (h : mark? cs = some (mark, after)) :
    after.length < cs.length := by
  unfold mark? at h
  split at h
  · next c ds =>
    simp only at h
    split at h
    · next rest hr =>
      split at h
      · simp only [Option.some.injEq, Prod.mk.injEq] at h
        obtain ⟨-, rfl⟩ := h
        have := congrArg List.length hr
        simp only [List.length_drop, List.length_cons] at this ⊢
        omega
      · simp at h
    · simp at h
  · simp at h

theorem length_lt_of_firstMark? {cs before mark after : List Char}
    (h : firstMark? cs = some (before, mark, after)) : after.length < cs.length := by
  induction cs generalizing before with
  | nil => simp [firstMark?] at h
  | cons c cs ih =>
    unfold firstMark? at h
    split at h
    · next hm =>
      simp only [Option.some.injEq, Prod.mk.injEq] at h
      obtain ⟨-, rfl, rfl⟩ := h
      exact length_lt_of_mark? hm
    · obtain ⟨p, hp, he⟩ := Option.map_eq_some_iff.mp h
      simp only [Prod.mk.injEq] at he
      obtain ⟨-, he⟩ := he
      have hp' : firstMark? cs = some (p.1, mark, after) := by rw [hp, ← he]
      have := ih hp'
      simp only [List.length_cons]
      omega

/-- A part of a marked text: plain text, or a mark after a number of backslashes. -/
inductive MarkedPart where
  | plain (text : List Char)
  | mark (backslashes : Nat) (text : List Char)
  deriving DecidableEq, Repr

/-- The number of backslashes at the end of a text. -/
def endingBackslashes (cs : List Char) : Nat := (cs.reverse.takeWhile (fun c => c = '\\')).length

/-- The parts of a marked text. -/
def markedParts (cs : List Char) : List MarkedPart :=
  match _h : firstMark? cs with
  | none => [.plain cs]
  | some (before, mark, after) =>
    let backslashes := endingBackslashes before
    .plain (before.take (before.length - backslashes)) :: .mark backslashes mark
      :: markedParts after
  termination_by cs.length
  decreasing_by exact length_lt_of_firstMark? _h

/-! ### What is shown -/

/-- Drop each backslash before a bracket. -/
def dropBackslashes : List Char → List Char
  | [] => []
  | c :: cs =>
    if c = '\\' && cs.head? = some '[' then dropBackslashes cs else c :: dropBackslashes cs

/-- Plain text as it is shown. -/
def shownPlain (cs : List Char) : List Char := replaceEmoji (dropBackslashes cs)

/-- A mark as a part of the text. -/
def shownMark (backslashes : Nat) (mark : List Char) : List Char :=
  List.replicate backslashes '\\' ++ replaceEmoji ('[' :: mark ++ [']'])

/-- Double a single backslash at the end. -/
def doubleLast (cs : List Char) : List Char :=
  match cs.reverse with
  | '\\' :: c :: _ => if c = '\\' then cs else cs ++ ['\\']
  | ['\\'] => cs ++ ['\\']
  | _ => cs

/-- A text as it is shown literally. -/
def literal (s : String) : String :=
  String.ofList ((markedParts (doubleLast s.toList)).flatMap (fun part =>
    match part with
    | .plain cs => shownPlain cs
    | .mark n cs => shownMark n cs))

/-! ### Open marks -/

/-- Why a marked text cannot be shown: a mark closes one that is not open, a number in a style
cannot be read, or an action is not well-formed. -/
inductive MarkFault where
  | unmatched | unreadable | noAction
  deriving DecidableEq, Repr

/-- A mark that has been opened: the normal form of its name, and what stands after an equals
sign. -/
structure OpenMark where
  name : String
  parameter : Option (List Char)
  deriving DecidableEq, Repr

namespace OpenMark

/-- The mark that a text opens. -/
def read (mark : List Char) : Except MarkFault OpenMark :=
  let name := mark.takeWhile (fun c => c ≠ '=')
  let parameter := if name.length < mark.length then some (mark.drop (name.length + 1)) else none
  match Style.normalForm name with
  | .ok name => .ok ⟨name, parameter⟩
  | .error _ => .error .unreadable

/-- Check a mark that is used as a style, its parameter being a part of the description. -/
def checkStyle (m : OpenMark) : Except MarkFault Unit :=
  let parameter := match m.parameter with
    | some text => ' ' :: text
    | none => []
  match Style.read (m.name.toList ++ parameter) with
  | .error .unreadable => .error .unreadable
  | _ => .ok ()

/-- Check a mark when it is closed: a name with an `@` asks for an action. -/
def checkClosed (m : OpenMark) : Except MarkFault Unit :=
  if m.name.toList.head? = some '@' then
    match m.parameter with
    | none => .ok ()
    | some text => if text.isEmpty || isAction text then .ok () else .error .noAction
  else m.checkStyle

end OpenMark

/-- Close the last mark that fits, of those that are listed from the last to the first. -/
def closeMark (fits : OpenMark → Bool) (opened : List OpenMark) :
    Except MarkFault (List OpenMark) :=
  match opened.find? fits with
  | none => .error .unmatched
  | some m => do
    m.checkClosed
    return opened.eraseP fits

/-- Open or close a mark; the open ones are listed from the last to the first. -/
def applyMark (opened : List OpenMark) (mark : List Char) : Except MarkFault (List OpenMark) :=
  if mark.head? = some '/' then
    let name := Text.trimChars ((mark.takeWhile (fun c => c ≠ '=')).drop 1)
    if name.isEmpty then closeMark (fun _ => true) opened
    else
      match Style.normalForm name with
      | .ok style => closeMark (fun m => m.name = style) opened
      | .error _ => .error .unreadable
  else do
    return (← OpenMark.read mark) :: opened

/-- The parts of a marked text as they are shown, with the open marks. -/
def showParts (opened : List OpenMark) : List MarkedPart → Except MarkFault (List Char)
  | [] => do
    opened.forM OpenMark.checkStyle
    return []
  | .plain cs :: parts => do
    return shownPlain cs ++ (← showParts opened parts)
  | .mark n cs :: parts => do
    let backslashes := List.replicate (n / 2) '\\'
    if n % 2 = 1 then
      return backslashes ++ shownMark 0 cs ++ (← showParts opened parts)
    else
      return backslashes ++ (← showParts (← applyMark opened cs) parts)

/-- A marked text as it is shown. -/
def shown (s : String) : Except MarkFault String := do
  return String.ofList (← showParts [] (markedParts s.toList))

end FieldTrace.Terminal
