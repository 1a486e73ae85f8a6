import Stencil.Event

/-!
# Filters — which events are shown

A filter is a list of directives, each with the least severe level that it lets through, and most
of them for events from one part of the library only. Of the directives that an event falls under,
the one with the longest name decides; an event that falls under none is not shown.
-/

namespace Stencil

/-- What is shown of the events whose origin begins with some name. -/
structure Directive where
  target : String
  level : Option Level
deriving Repr, DecidableEq

/-- The directives of a filter. -/
abbrev Filter := List Directive

/-- The filter that shows the events of all parts up to a level. -/
def Filter.upTo (level : Level) : Filter :=
  [⟨"", some level⟩]

/-- The bound that a word stands for, in small or capital letters or as a number: a level, or
    that nothing is shown. -/
def Level.bound? (word : String) : Option (Option Level) :=
  match word.toLower with
  | "off" | "0" => some none
  | "error" | "1" => some (some .error)
  | "warn" | "2" => some (some .warn)
  | "info" | "3" => some (some .info)
  | "debug" | "4" => some (some .debug)
  | "trace" | "5" => some (some .trace)
  | _ => none

/-- Reads a directive: a level, a target, or both. A target alone shows everything. -/
def Directive.read? (text : String) : Option Directive :=
  match text.splitOn "=" with
  | [word] =>
    match Level.bound? word with
    | some level => some ⟨"", level⟩
    | none => some ⟨word, some .trace⟩
  | [target, word] => (Level.bound? word).map fun level => ⟨target, level⟩
  | _ => none

/-- Reads a filter, its directives with commas between them. A text without any asks for errors
    only. -/
def Filter.read? (text : String) : Option Filter :=
  match (text.splitOn ",").filter (· ≠ "") with
  | [] => some (.upTo .error)
  | directives => directives.mapM Directive.read?

/-- Of two directives that an event falls under, the one with the longer name, and of two with the
    same name the later one. -/
def Directive.narrower (earlier later : Directive) : Directive :=
  if later.target.length < earlier.target.length then earlier else later

/-- An event is shown. -/
def Filter.shows (filter : Filter) (event : Event) : Bool :=
  match filter.filter fun directive => event.target.startsWith directive.target with
  | [] => false
  | first :: others =>
    match (others.foldl Directive.narrower first).level with
    | none => false
    | some level => event.level.rank ≤ level.rank

end Stencil
