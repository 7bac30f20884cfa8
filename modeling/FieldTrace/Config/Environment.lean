import FieldTrace.Config.SettingsFile
import FieldTrace.Table
import FieldTrace.Text.Case
import FieldTrace.Text.Utf8

/-! # Environment variables

Variables come from the environment and from a settings file. Of two settings for a name the later
one counts; a variable of the environment counts before any setting. A value may refer to variables
as `${NAME}`, or as `${NAME:-text}` with a text for a missing variable; it sees the environment and
the settings before it. A variable of the environment can forbid that settings files are read. A
null character cannot be put into the environment, nor can an equals sign in a name. -/

namespace FieldTrace

/-- Variables by name. -/
abbrev Environment := Table String String

/-- Why a settings file cannot be used. -/
inductive SettingsFault where
  | malformed (fault : Text.Utf8Fault)
  | nullCharacter
  | illegalName
  deriving DecidableEq, Repr

/-- What is wrong with the file. -/
def SettingsFault.message : SettingsFault → String
  | malformed fault => fault.message
  | nullCharacter => "embedded null byte"
  | illegalName => "illegal environment variable name"

/-- A reference to a variable, with a text for the case that there is none. -/
structure VariableRef where
  name : String
  fallback : String
  deriving DecidableEq, Repr

namespace VariableRef

/-- The reference that a text begins with, and the text after it. -/
def read? : List Char → Option (VariableRef × List Char)
  | '$' :: '\x7b' :: cs =>
    let name := String.ofList (cs.takeWhile (fun c => c ≠ '\x7d' && c ≠ ':'))
    match cs.dropWhile (fun c => c ≠ '\x7d' && c ≠ ':') with
    | '\x7d' :: after => some (⟨name, ""⟩, after)
    | ':' :: '-' :: rest =>
      let fallback := String.ofList (rest.takeWhile (fun c => c ≠ '\x7d'))
      match rest.dropWhile (fun c => c ≠ '\x7d') with
      | [] => none
      | _ :: after => some (⟨name, fallback⟩, after)
    | _ => none
  | _ => none

theorem length_lt_of_read? {cs after : List Char} {r : VariableRef}
    (h : read? cs = some (r, after)) : after.length < cs.length := by
  unfold read? at h
  split at h
  · next ds =>
    have hd := Text.length_dropWhile_le (fun c => c ≠ '\x7d' && c ≠ ':') ds
    simp only at h
    split at h
    · next rest hr =>
      rw [hr] at hd
      simp only [Option.some.injEq, Prod.mk.injEq] at h
      obtain ⟨-, rfl⟩ := h
      simp only [List.length_cons] at hd ⊢
      omega
    · next rest hr =>
      rw [hr] at hd
      have he := Text.length_dropWhile_le (fun c => c ≠ '\x7d') rest
      split at h
      · simp at h
      · next d tail ht =>
        rw [ht] at he
        simp only [Option.some.injEq, Prod.mk.injEq] at h
        obtain ⟨-, rfl⟩ := h
        simp only [List.length_cons] at hd he ⊢
        omega
    · simp at h
  · simp at h

/-- A text with its references replaced by what they stand for. -/
def expand (meaning : VariableRef → String) (cs : List Char) : List Char :=
  match _h : read? cs with
  | some (r, after) => (meaning r).toList ++ expand meaning after
  | none =>
    match cs with
    | [] => []
    | c :: rest => c :: expand meaning rest
  termination_by cs.length
  decreasing_by
    · exact length_lt_of_read? _h
    · simp

end VariableRef

namespace Environment

/-- What a reference stands for, seen from the environment and earlier settings. -/
def meaning (env : Environment) (settings : Table String (Option String)) (r : VariableRef) :
    String :=
  match env.get? r.name with
  | some v => v
  | none =>
    match settings.get? r.name with
    | some v => v.getD ""
    | none => r.fallback

/-- Add a setting to those before it. -/
def addSetting (env : Environment) (settings : Table String (Option String)) (s : Setting) :
    Table String (Option String) :=
  settings.insert s.name (s.value.map (fun v =>
    String.ofList (VariableRef.expand (meaning env settings) v.toList)))

/-- The variable that forbids settings files. -/
def forbiddingName : String := "PYTHON_DOTENV_DISABLED"

/-- The values that say yes, in any case. -/
def affirmations : List String := ["1", "true", "t", "yes", "y"]

/-- A text without differences of case; the long `s` is an `s`. -/
def foldCase (s : String) : String :=
  String.ofList ((Text.lower s).toList.map (fun c => if c = 'ſ' then 's' else c))

/-- Does the environment forbid settings files? -/
def forbidsFiles (env : Environment) : Bool :=
  (env.get? forbiddingName).any (fun v => affirmations.contains (foldCase v))

/-- The settings file that is read, if there is one. -/
def readable {α : Type} (env : Environment) (file : Option α) : Option α :=
  if env.forbidsFiles then none else file

/-- Put a variable into the environment. -/
def define (env : Environment) (name value : String) : Except SettingsFault Environment :=
  if (name ++ value).toList.contains (Char.ofNat 0) then .error .nullCharacter
  else if name.toList.contains '=' then .error .illegalName
  else .ok (env.insert name value)

/-- Add a setting that has a value to the environment, unless it has a variable of that name. -/
def supplement (env : Environment) (name : String) (value : Option String) :
    Except SettingsFault Environment :=
  match value, env.get? name with
  | some v, none => env.define name v
  | _, _ => .ok env

/-- Add the variables of a settings file that are not in the environment. -/
def withFile (env : Environment) (file : Option String) : Except SettingsFault Environment :=
  match env.readable file with
  | some s =>
    let settings := (Setting.ofFile s).foldl (addSetting env) .empty
    settings.entries.foldlM (fun result e => result.supplement e.1 e.2) env
  | none => .ok env

/-- Add the variables of a settings file, which has to be well-formed text if it is read. -/
def withBytes (env : Environment) (file : Option (List UInt8)) :
    Except SettingsFault Environment :=
  match env.readable file with
  | some bytes =>
    match Text.utf8Fault? bytes with
    | some fault => .error (.malformed fault)
    | none => env.withFile (some (String.ofList (Text.decodeBytes bytes)))
  | none => .ok env

end Environment

end FieldTrace
