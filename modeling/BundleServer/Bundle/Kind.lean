import BundleServer.Bundle.Markers

/-!
# Kinds of bundles

There are four bundles for each application. A kind fixes the suffix of the fragments, how they are composed, the
file name under which the bundle is served, and its content type.
-/

namespace BundleServer

/-- One of the bundles of an application. -/
inductive Kind where
  | json
  | script
  | stylesheet
  | template
  deriving DecidableEq, Repr

/-- How fragments are composed: merged into one object, or put one behind the other between markers. -/
inductive Composition where
  | merge
  | concatenate (markers : Markers)
  deriving DecidableEq, Repr

namespace Kind

/-- All kinds, in the order in which they are listed. -/
def all : List Kind := [.json, .script, .stylesheet, .template]

/-- The name of a kind. -/
def name : Kind → String
  | .json => "json"
  | .script => "script"
  | .stylesheet => "stylesheet"
  | .template => "template"

/-- What the paths of the kind's fragments end with. -/
def suffix : Kind → String
  | .json => ".json"
  | .script => ".js"
  | .stylesheet => ".css"
  | .template => ".ract"

/-- How the kind's fragments are composed. -/
def composition : Kind → Composition
  | .json => .merge
  | .script => .concatenate (.ofStrings "/* \x7bkey\x7d.js */" "/* \x7bkey\x7d.js */")
  | .stylesheet => .concatenate (.ofStrings "/* \x7bkey\x7d.css */" "/* \x7bkey\x7d.css */")
  | .template =>
    .concatenate (.ofStrings "<!-- \x7b\x7b>\x7bkey\x7d\x7d\x7d -->" "<!-- \x7b\x7b/\x7bkey\x7d\x7d\x7d -->")

/-- The markers of the kind's fragments, if they are put one behind the other. -/
def markers? (kind : Kind) : Option Markers :=
  match kind.composition with
  | .merge => none
  | .concatenate markers => some markers

/-- The file name under which the bundle is served. -/
def routeFile : Kind → String
  | .json => "data.json"
  | .script => "data.js"
  | .stylesheet => "data.css"
  | .template => "data.ract"

/-- The kind that is served under a file name. -/
def ofRouteFile? (file : String) : Option Kind := all.find? (·.routeFile = file)

/-- The content type of the bundle. -/
def contentType : Kind → String
  | .json => "application/json"
  | .script => "application/javascript; charset=utf-8"
  | .stylesheet => "text/css; charset=utf-8"
  | .template => "text/html; charset=utf-8"

end Kind

end BundleServer
