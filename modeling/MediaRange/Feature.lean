import MediaRange.EditDistance

/-!
# Media features

The features of a media query that can be compared with a value, and the search for the one that
a misspelt name may have meant.
-/

namespace MediaRange

/-- A media feature that has `min-` and `max-` forms. -/
inductive Feature where
  | width
  | height
  | deviceWidth
  | deviceHeight
  | aspectRatio
  | deviceAspectRatio
  | color
  | colorIndex
  | monochrome
  | resolution
  deriving DecidableEq, Repr

namespace Feature

def all : List Feature :=
  [width, height, deviceWidth, deviceHeight, aspectRatio, deviceAspectRatio, color, colorIndex,
    monochrome, resolution]

theorem mem_all (f : Feature) : f ∈ all := by cases f <;> decide

def name : Feature → String
  | width => "width"
  | height => "height"
  | deviceWidth => "device-width"
  | deviceHeight => "device-height"
  | aspectRatio => "aspect-ratio"
  | deviceAspectRatio => "device-aspect-ratio"
  | color => "color"
  | colorIndex => "color-index"
  | monochrome => "monochrome"
  | resolution => "resolution"

/-- The unit of the feature's values; ratios and counts have none. -/
def unit : Feature → String
  | width | height | deviceWidth | deviceHeight => "px"
  | resolution => "dpi"
  | aspectRatio | deviceAspectRatio | color | colorIndex | monochrome => ""

/-- The feature with exactly this name. -/
def named? (name : List Char) : Option Feature := all.find? fun f => f.name.toList = name

theorem named?_name (f : Feature) : named? f.name.toList = some f := by cases f <;> decide

/-- The largest edit distance at which a name counts as misspelt. -/
def suggestionDistance : Nat := 2

/-- The lower-case form of a name, as far as feature names are concerned: they are ASCII, and
every character that is left as it is has a lower-case form outside ASCII. -/
def lowerCase (name : List Char) : List Char :=
  name.flatMap fun c =>
    if 'A' ≤ c && c ≤ 'Z' then [c.toLower]
    else if c = '\u212A' then ['k']
    else if c = '\u0130' then ['i', '\u0307']
    else [c]

/-- The first of the nearest features, with its distance. -/
def nearest (name : List Char) : List Feature → Option (Feature × Nat)
  | [] => none
  | f :: features =>
    let distance := editDistance name f.name.toList
    match nearest name features with
    | some (g, least) => if distance ≤ least then some (f, distance) else some (g, least)
    | none => some (f, distance)

/-- The feature that a misspelt name may have meant: the first of the nearest ones, if it is near
enough. -/
def suggested? (name : List Char) : Option Feature :=
  match nearest (lowerCase name) all with
  | some (f, distance) => if distance ≤ suggestionDistance then some f else none
  | none => none

end Feature

end MediaRange
