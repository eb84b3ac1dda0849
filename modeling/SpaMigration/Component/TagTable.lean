import SpaMigration.Component.Tag

/-!
# What becomes of attributes

Each replaced element has a change of its attributes: some are renamed or mapped, some dropped with a
warning, and all others stay.
-/
namespace SpaMigration.TagChange

/-- Drops the first attribute of a name, with a warning when there was one. -/
def drop (name : String) (warnings : List String) : TagChange := fun attributes =>
  if attributes.has name then (attributes.erase name, warnings) else (attributes, [])

namespace Image

/-- An image that fills its parent takes the full width. -/
def fill : TagChange := fun attributes =>
  match attributes.get? "fill" with
  | some flag =>
    if flag.isTruthyFlag then
      (attributes.erase "fill" ++ [⟨"layout", some "\"fullWidth\""⟩],
       ["Image prop \x60fill\x60 approximated with layout=\"fullWidth\""])
    else (attributes.erase "fill", [])
  | none => (attributes, [])

/-- The layout that a layout of the framework stands for. -/
def mappedLayout? : String → Option String
  | "fill" | "fullWidth" => some "fullWidth"
  | "responsive" | "intrinsic" | "constrained" => some "constrained"
  | "fixed" => some "fixed"
  | _ => none

/-- The layout is mapped and moves to the end; an unknown one only moves. -/
def layout : TagChange := fun attributes =>
  match attributes.get? "layout" with
  | some given =>
    let others := attributes.erase "layout"
    match given.string?.bind mappedLayout? with
    | some mapped =>
      let warnings := if given.string? == some mapped then []
        else ["Image layout=" ++ given.value.getD "" ++ " mapped to layout=\"" ++ mapped ++ "\""]
      (others ++ [⟨"layout", some ("\"" ++ mapped ++ "\"")⟩], warnings)
    | none => (others ++ [given], [])
  | none => (attributes, [])

/-- A blurred placeholder is dropped, its two attributes with one warning. -/
def placeholder : TagChange := fun attributes =>
  let warnings := if attributes.has "placeholder" || attributes.has "blurDataURL" then
      ["Image blur placeholder is not supported; use the \x60background\x60 prop instead"]
    else []
  ((attributes.erase "placeholder").erase "blurDataURL", warnings)

/-- Attributes of images without a counterpart. -/
def dropped : List String :=
  ["quality", "loader", "unoptimized", "objectFit", "objectPosition", "lazyBoundary", "lazyRoot"]

/-- An image needs a size or a layout, unless a spread may bring them. -/
def sizeCheck : TagChange := fun attributes =>
  let sized := attributes.has "width" && attributes.has "height"
  if sized || attributes.has "layout" || attributes.any (·.isSpread) then (attributes, [])
  else (attributes, ["Image without width/height needs a \x60layout\x60 prop"])

end Image

/-- The change of an image's attributes. -/
def image : TagChange :=
  sequence <|
    [Image.fill, Image.layout, Image.placeholder]
    ++ Image.dropped.map (fun name =>
      drop name ["Image prop \x60" ++ name ++ "\x60 has no equivalent and was removed"])
    ++ [Image.sizeCheck]

namespace Link

/-- The target of a link is renamed and comes first. -/
def href : TagChange := fun attributes =>
  match attributes.get? "href" with
  | some given =>
    let isObject := given.value.any fun value => Text.startsWith value.toList ['\x7b', '\x7b']
    (⟨"to", given.value⟩ :: attributes.erase "href",
     if isObject then ["Link with an object \x60href\x60 must be converted to a path string by hand"]
     else [])
  | none => (attributes, [])

/-- A link that does not scroll says so with a flag. -/
def scroll : TagChange := fun attributes =>
  match attributes.get? "scroll" with
  | some given =>
    let others := attributes.erase "scroll"
    (if given.value == some "\x7bfalse\x7d" then others ++ [⟨"preventScrollReset", none⟩] else others, [])
  | none => (attributes, [])

end Link

/-- The change of a link's attributes. -/
def link : TagChange :=
  sequence
    [Link.href,
     drop "as" ["Link prop \x60as\x60 was removed; \x60to\x60 now holds the visible URL"],
     Link.scroll,
     drop "legacyBehavior" ["Link used legacyBehavior; move the child <a> props onto <Link>"],
     drop "passHref" [],
     drop "prefetch" [],
     drop "shallow" [],
     drop "locale" ["Link prop \x60locale\x60 is not supported by react-router-dom"]]

namespace Script

/-- The time a script is loaded becomes a flag. -/
def strategy : TagChange := fun attributes =>
  match attributes.get? "strategy" with
  | some given =>
    let others := attributes.erase "strategy"
    match given.string? with
    | some "beforeInteractive" =>
      (others, ["Script strategy=\"beforeInteractive\" should be moved into index.html"])
    | some "lazyOnload" => (others ++ [⟨"defer", none⟩], [])
    | some "worker" =>
      (others ++ [⟨"async", none⟩], ["Script strategy=\"worker\" has no equivalent; loaded with async"])
    | _ => (others ++ [⟨"async", none⟩], [])
  | none => if attributes.has "src" then (attributes ++ [⟨"async", none⟩], []) else (attributes, [])

end Script

/-- The change of a script's attributes. -/
def script : TagChange :=
  sequence <|
    Script.strategy :: ["onLoad", "onReady", "onError"].map fun handler =>
      drop handler ["Script \x60" ++ handler ++ "\x60 handler removed; run it from a useEffect instead"]

end SpaMigration.TagChange
