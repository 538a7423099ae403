import ComponentDocs.Override.Format
import ComponentDocs.Text.Casing

/-!
# Discovery of providers

Providers are asked for by name, in any letter case.  Plugins can add names to the built-in ones
but cannot replace them, and the first plugin of a name counts.
-/

namespace ComponentDocs

/-- What a plugin turns out to be once it is loaded. -/
inductive PluginContent (α : Type) where
  | provider (provider : α)
  | other
  deriving DecidableEq, Repr

/-- A plugin: its name, and what loading it gives or why it fails. -/
structure Plugin (α : Type) where
  name : String
  content : Except String (PluginContent α)

/-- Why providers could not be found. -/
inductive DiscoveryProblem where
  | loading (name reason : String)
  | unknown (names : List String)
  | notProvider
  deriving DecidableEq, Repr

/-- The message of a problem. -/
def DiscoveryProblem.message : DiscoveryProblem → String
  | .loading name reason => "Failed to load override provider '" ++ name ++ "': " ++ reason
  | .unknown names =>
    "Unknown override providers requested: " ++ ", ".intercalate (names.mergeSort (· ≤ ·))
  | .notProvider =>
    "Override provider entry point must be an OverrideProvider subclass or factory"

namespace Discovery

variable {α : Type}

/-- The names with what they stand for, after the plugins have been added. -/
def known : List (String × PluginContent α) → List (Plugin α) →
    Except DiscoveryProblem (List (String × PluginContent α))
  | found, [] => .ok found
  | found, plugin :: rest =>
    let name := Text.lowered plugin.name
    if (found.lookup name).isSome then known found rest
    else
      match plugin.content with
      | .ok content => known (found ++ [(name, content)]) rest
      | .error reason => .error (.loading plugin.name reason)

/-- The provider that a name stands for. -/
def provide (found : List (String × PluginContent α)) (name : String) :
    Except DiscoveryProblem α :=
  match found.lookup name with
  | some (.provider p) => .ok p
  | some .other => .error .notProvider
  | none => .error (.unknown [name])

/-- The providers of the given names, each once and in the order of the names; without names the
built-in ones. -/
def providers (builtIn : List (String × α)) (plugins : List (Plugin α))
    (enabled : Option (List String)) : Except DiscoveryProblem (List α) := do
  let found ← known (builtIn.map fun (name, p) => (name, .provider p)) plugins
  let names := match enabled with
    | some names => names.map Text.lowered
    | none => builtIn.map Prod.fst
  let missing := names.filter fun name => (found.lookup name).isNone
  if !missing.isEmpty then throw (.unknown missing)
  names.eraseDups.mapM (provide found)

end Discovery

/-- The formats of the given names, or all of them. -/
def OverrideFormat.ofNames (enabled : Option (List String)) :
    Except DiscoveryProblem (List OverrideFormat) :=
  Discovery.providers (OverrideFormat.all.map fun f => (f.name, f)) [] enabled

end ComponentDocs
