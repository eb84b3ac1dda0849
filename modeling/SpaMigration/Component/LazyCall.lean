import SpaMigration.Component.DefaultImport
import SpaMigration.Component.Usage

/-!
# Calls that load a component

A call that loads a component on demand has a loader and possibly an object of options. It becomes a call
of `lazy` with the loader alone; what is lost of the options is told in warnings.
-/
namespace SpaMigration

open Syntax

/-- A call that loads a component. -/
structure LazyCall where
  span : Span
  /-- The text of the loader, unless there is none or it is spread. -/
  loader : Option (List Char)
  /-- The names of the options given. -/
  options : List String
  /-- Some options cannot be told from the text. -/
  opaqueOptions : Bool
  deriving DecidableEq, Repr

mutual

/-- The topmost nodes of a kind: nothing below one of them is looked at. -/
def topmost (wanted : Node → Bool) : Node → List Node
  | .mk kind span parts =>
    if wanted (.mk kind span parts) then [.mk kind span parts] else topmostOf wanted parts

/-- The topmost nodes of a kind in several trees. -/
def topmostOf (wanted : Node → Bool) : List Node → List Node
  | [] => []
  | node :: rest => topmost wanted node ++ topmostOf wanted rest

end

namespace LazyCall

/-- The name of an option, when the property of the object has one. -/
def optionName? (source : Source) (item : Node) : Option String :=
  match item.kind, item.parts with
  | .property, key :: _ | .methodProperty, key :: _ => source.keyName? key
  | .shorthandProperty name, _ => some name
  | _, _ => none

/-- The arguments of a call. -/
def argumentsOf (call : Node) : List Node :=
  call.parts.filter fun part => part.kind == .argument false || part.kind == .argument true

/-- The value of an argument that is not spread. -/
def plainArgument? (argument : Node) : Option Node :=
  match argument.kind, argument.parts with
  | .argument false, value :: _ => some value
  | _, _ => none

/-- What is known of the options of a call: their names, and whether there are others. -/
def optionsOf (source : Source) : Option Node → List String × Bool
  | none => ([], false)
  | some argument =>
    match plainArgument? argument with
    | some value =>
      if value.kind == .object then
        let names := value.parts.map (optionName? source)
        (names.filterMap id, names.any (·.isNone))
      else ([], true)
    | none => ([], true)

/-- A call of the given name, taken apart. -/
def ofNode? (source : Source) (call : Node) : Option LazyCall := do
  let arguments := argumentsOf call
  let loader ← match arguments.head?.bind plainArgument? with
    | some value => (source.textAt? value.span).map some
    | none => some none
  let (options, opaqueOptions) := optionsOf source (arguments.drop 1).head?
  return ⟨call.span, loader, options, opaqueOptions⟩

/-- The calls of a name in a source. Calls inside such a call are not looked for. -/
def findAll? (source : Source) (name : String) : Option (List LazyCall) :=
  (topmostOf (fun node => ComponentUsage.calledName? node == some name) source.items).mapM (ofNode? source)

/-- What is lost when a call is replaced whose loader is known. -/
def warnings (call : LazyCall) (loader : List Char) (options : ReplacementOptions) : List String :=
  (if Text.occursIn ".then(".toList loader then
    ["lazy() needs a default export; check loaders that pick a named export"] else [])
  ++ (if call.options.contains "ssr" then
    ["dynamic() \x60ssr\x60 option dropped; everything renders on the client"] else [])
  ++ (if call.options.contains "loading" then
    ["dynamic() \x60loading\x60 option dropped; render the component inside <Suspense fallback=\x7b"
      ++ options.lazyFallback ++ "\x7d>"] else [])
  ++ (if call.opaqueOptions then
    ["dynamic() options that are not a plain object were dropped"] else [])

/-- The edit of a call, if it has a loader, and its warnings. -/
def replacement (call : LazyCall) (name : String) (options : ReplacementOptions) :
    Option Edit × List String :=
  match call.loader with
  | some loader =>
    (some ⟨call.span.lo, call.span.hi, "lazy(".toList ++ loader ++ [')']⟩, call.warnings loader options)
  | none =>
    (none,
     [name ++ "() call without a plain loader argument left unchanged; the next/dynamic import is kept"])

end LazyCall

end SpaMigration
