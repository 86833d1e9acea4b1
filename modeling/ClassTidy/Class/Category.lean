import ClassTidy.Class.Name

/-!
# Categories

Classes fall into categories by their base name. The rules are tried in order and the first that
applies decides; a name that no rule applies to is of the category `other`.
-/

set_option autoImplicit false

namespace ClassTidy

inductive Category where
  | layoutDisplay
  | layoutPosition
  | flexGrid
  | spacing
  | sizing
  | typography
  | backgrounds
  | borders
  | effects
  | filters
  | transitions
  | transforms
  | interactivity
  | other
  deriving DecidableEq

namespace Category

def all : List Category :=
  [layoutDisplay, layoutPosition, flexGrid, spacing, sizing, typography, backgrounds, borders,
   effects, filters, transitions, transforms, interactivity, other]

def label : Category → String
  | layoutDisplay => "layout-display"
  | layoutPosition => "layout-position"
  | flexGrid => "flex-grid"
  | spacing => "spacing"
  | sizing => "sizing"
  | typography => "typography"
  | backgrounds => "backgrounds"
  | borders => "borders"
  | effects => "effects"
  | filters => "filters"
  | transitions => "transitions"
  | transforms => "transforms"
  | interactivity => "interactivity"
  | other => "other"

end Category

/-- A category and the base names that belong to it: those that are one of some words, and those
that start with one of some words. -/
structure Rule where
  category : Category
  words : List String := []
  starts : List String := []

namespace Rule

/-- Whether a base name is a word. One line feed may follow the word. -/
def isWord (base word : Text) : Bool := base == word || base == word ++ ['\n']

def accepts (rule : Rule) (base : Text) : Bool :=
  (rule.words.any fun word => isWord base word.toList) ||
    (rule.starts.any fun word => word.toList.isPrefixOf base)

end Rule

/-- The rules, in the order in which they are tried. -/
def rules : List Rule :=
  [{ category := .layoutDisplay,
     words :=
       ["block", "inline", "grid", "table", "contents", "hidden", "static", "fixed", "absolute",
        "relative", "sticky"] },
   { category := .layoutPosition,
     starts :=
       ["isolate", "z-", "top", "right", "bottom", "left", "visible", "invisible", "overflow",
        "overscroll", "object", "inset"] },
   { category := .flexGrid,
     words := ["flex"],
     starts :=
       ["flex-", "justify-", "items-", "content-", "self-", "order-", "place-", "grow", "shrink",
        "basis"] },
   { category := .flexGrid,
     starts := ["grid-", "col-", "row-", "gap-", "auto-cols", "auto-rows"] },
   { category := .spacing,
     starts :=
       ["p-", "px-", "py-", "pt-", "pr-", "pb-", "pl-", "m-", "mx-", "my-", "mt-", "mr-", "mb-",
        "ml-", "space-"] },
   { category := .sizing,
     starts := ["w-", "h-", "min-", "max-", "size-", "aspect-"] },
   { category := .typography,
     starts :=
       ["font-", "text-", "antialiased", "subpixel", "italic", "not-italic", "normal-case",
        "uppercase", "lowercase", "capitalize", "tracking-", "leading-", "align-", "whitespace-",
        "break-", "hyphens-", "content-", "decoration-", "underline", "overline", "line-through",
        "no-underline", "list-", "indent-"] },
   { category := .backgrounds,
     starts := ["bg-", "gradient-", "from-", "via-", "to-"] },
   { category := .borders,
     starts := ["rounded", "border", "divide", "ring", "outline", "stroke", "fill"] },
   { category := .effects,
     starts := ["shadow", "opacity", "mix-", "blend-", "box-decoration", "box-slice"] },
   { category := .filters,
     starts :=
       ["blur", "brightness", "contrast", "drop-shadow", "grayscale", "hue-rotate", "invert",
        "saturate", "sepia", "backdrop-"] },
   { category := .transitions,
     starts := ["transition", "duration", "ease", "delay", "animate-"] },
   { category := .transforms,
     starts := ["scale", "rotate", "translate", "skew", "origin-"] },
   { category := .interactivity,
     starts :=
       ["cursor-", "pointer-", "resize", "scroll-", "select-", "touch-", "will-change",
        "accent-", "appearance-", "caret-"] }]

def categoryBy (rules : List Rule) (base : Text) : Category :=
  match rules.find? (·.accepts base) with
  | some rule => rule.category
  | none => .other

def ClassName.category (name : ClassName) : Category := categoryBy rules name.base

end ClassTidy
