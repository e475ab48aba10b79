import Mathlib.Data.List.AList
import Kerghan.Text

/-!
This module contains `renderTemplate` of the mail module.
-/

namespace Kerghan.Mail

abbrev Text := List Char

structure RawTemplate where
  subject : Text
  text : Text
  html : Option Text

structure RenderedTemplate where
  subject : Text
  text : Text
  html : Option Text
  deriving DecidableEq, Repr

/--
The properties of an object, or the entries of the `Map` that is made of them.
-/
abbrev Record (α : Type) := AList fun _ : Text => α

inductive RenderError where
  | unknownTemplate (templateName : Text)
  | missingVariable (templateName key : Text)
  deriving DecidableEq, Repr

def RenderError.message : RenderError → Text
  | .unknownTemplate templateName => "mail: unknown template: ".toList ++ templateName
  | .missingVariable templateName key =>
    "mail: template '".toList ++ templateName ++ "' is missing variable '".toList ++ key ++ "'".toList

section Html

/--
`HTML_ESCAPES`, and a character that has none as it is.
-/
def HTML_ESCAPES (c : Char) : Text :=
  if c = '&' then
    "&amp;".toList
  else if c = '<' then
    "&lt;".toList
  else if c = '>' then
    "&gt;".toList
  else if c = '"' then
    "&quot;".toList
  else if c = '\'' then
    "&#39;".toList
  else
    [c]

def escapeHtml (value : Text) : Text :=
  value.flatMap HTML_ESCAPES

end Html

section Placeholder

def isKeyChar (c : Char) : Bool :=
  isAlphanumeric c || c == '_'

/--
`/\{\{\s*([A-Za-z0-9_]+)\s*\}\}/` at the start of a text: the key, and what follows the match. No two of its
parts match a common character, so a greedy match never has to be taken back.
-/
def PLACEHOLDER : Text → Option (Text × Text)
  | '{' :: '{' :: text =>
    let text := text.dropWhile isSpace
    let key := text.takeWhile isKeyChar
    match (text.dropWhile isKeyChar).dropWhile isSpace with
    | '}' :: '}' :: rest => if key = [] then none else some (key, rest)
    | _ => none
  | _ => none

/--
`text.replace(PLACEHOLDER, replacement)` from the character on that comes after the next `skipped` ones, which
belong to a match.
-/
def replaceFrom {ε : Type} (replacement : Text → Except ε Text) (skipped : Nat) (text : Text) : Except ε Text :=
  match text, skipped with
  | [], _ => .ok []
  | _ :: text, skipped + 1 => replaceFrom replacement skipped text
  | c :: text, 0 =>
    match PLACEHOLDER (c :: text) with
    | some (key, rest) => do
      let value ← replacement key
      let replaced ← replaceFrom replacement (text.length - rest.length) text
      pure (value ++ replaced)
    | none => do
      let replaced ← replaceFrom replacement 0 text
      pure (c :: replaced)

end Placeholder

/--
The callback of `interpolate`.
-/
def replacementFor (variablesMap : Record Text) (escape : Bool) (templateName key : Text)
    : Except RenderError Text :=
  match variablesMap.lookup key with
  | none => .error (.missingVariable templateName key)
  | some value => .ok (if escape then escapeHtml value else value)

def interpolate (text : Text) (variablesMap : Record Text) (escape : Bool) (templateName : Text)
    : Except RenderError Text :=
  replaceFrom (replacementFor variablesMap escape templateName) 0 text

def renderTemplate (registry : Record RawTemplate) (templateName : Text) (variablesMap : Record Text)
    : Except RenderError RenderedTemplate :=
  match registry.lookup templateName with
  | none => .error (.unknownTemplate templateName)
  | some raw => do
    let subject ← interpolate raw.subject variablesMap false templateName
    let text ← interpolate raw.text variablesMap false templateName
    match raw.html with
    | none => pure { subject, text, html := none }
    | some html => pure { subject, text, html := some (← interpolate html variablesMap true templateName) }

end Kerghan.Mail
