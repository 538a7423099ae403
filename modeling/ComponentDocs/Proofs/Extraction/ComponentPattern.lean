import ComponentDocs.Extraction.Defaults
import Mathlib.Data.List.Basic

/-!
# Which pattern states the defaults

The functions at the top of a file, those in the initial values of its variables included, are gone
through in order, and the first one with an object pattern counts that has the name of the component
or mentions its props declaration (`componentPattern_eq_findSome?`).

So the function with the name of the component states the defaults unless one in front of it
mentions the props declaration too, as a helper does which takes the same properties; what stands
after it never counts (`statedDefaults_of_component`).
-/

namespace ComponentDocs.Extraction

open Source

/-! ## The functions of a file -/

/-- A function at the top of a file, or the first one in the initial value of a variable there. -/
structure TopFunction where
  name : Option String
  /-- The annotation of the variable. -/
  typeClause : Option String
  shape : FunctionShape
  deriving DecidableEq

namespace TopFunction

/-- The elements of the pattern of the first parameter, if it is an object pattern. -/
def pattern? (f : TopFunction) : Option (List PatternElement) :=
  f.shape.firstParameter.bind Parameter.pattern

/-- Whether the annotation of the variable or of the first parameter mentions a name. -/
def mentions (f : TopFunction) (name : String) : Bool :=
  [f.typeClause, f.shape.firstParameter.bind Parameter.typeClause].any fun clause =>
    (clause.map (Text.contains · name)).getD false

/-- The pattern of a function that may be the component. -/
def chosen? (componentName propsName : String) (f : TopFunction) : Option (List PatternElement) :=
  if f.name = some componentName ∨ f.mentions propsName then f.pattern? else none

variable {componentName propsName : String} {f : TopFunction}

theorem chosen?_of_name (hname : f.name = some componentName) :
    f.chosen? componentName propsName = f.pattern? := if_pos (.inl hname)

theorem chosen?_of_name_ne (hname : f.name ≠ some componentName) :
    f.chosen? componentName propsName = if f.mentions propsName then f.pattern? else none := by
  simp only [chosen?, hname, false_or]

end TopFunction

/-- The functions that a definition holds. -/
def functionsOf : Definition → List TopFunction
  | .function name shape => [⟨name, none, shape⟩]
  | .bindings declarators => declarators.filterMap fun declarator =>
      declarator.earliestFunction.map (⟨some declarator.name, declarator.typeClause, ·⟩)
  | _ => []

/-- The functions at the top of a file, in order. -/
def topFunctions (file : ParsedFile) : List TopFunction := file.definitions.flatMap functionsOf

/-! ## The choice -/

variable {componentName propsName : String} {file : ParsedFile}

private theorem patternOf_eq_chosen? (name typeClause : Option String) (shape : FunctionShape) :
    patternOf propsName (name = some componentName ||
        (typeClause.map (Text.contains · propsName)).getD false) shape =
      TopFunction.chosen? componentName propsName ⟨name, typeClause, shape⟩ := by
  obtain ⟨_ | ⟨pattern, clause⟩⟩ := shape
  · simp [patternOf, TopFunction.chosen?, TopFunction.pattern?]
  · cases pattern <;> cases clause <;> cases typeClause <;>
      simp [patternOf, TopFunction.chosen?, TopFunction.pattern?, TopFunction.mentions, or_assoc]

private theorem declaratorPattern_eq (declarator : Declarator) :
    declaratorPattern componentName propsName declarator =
      (declarator.earliestFunction.map (TopFunction.mk declarator.name declarator.typeClause)).bind
        (TopFunction.chosen? componentName propsName) := by
  unfold declaratorPattern
  cases declarator.earliestFunction with
  | none => rfl
  | some shape =>
      rw [Option.map_some, Option.bind_some, ← patternOf_eq_chosen?]
      cases htype : declarator.typeClause <;> simp

private theorem definitionPattern_eq (definition : Definition) :
    definitionPattern componentName propsName definition =
      (functionsOf definition).findSome? (TopFunction.chosen? componentName propsName) := by
  cases definition with
  | function name shape =>
      have hchosen := @patternOf_eq_chosen? componentName propsName name none shape
      simpa [definitionPattern, functionsOf] using hchosen
  | bindings declarators =>
      rw [definitionPattern, functionsOf, ← List.head?_filterMap, ← List.head?_filterMap,
        List.filterMap_filterMap, funext declaratorPattern_eq]
  | type _ => rfl
  | other => rfl

/-- The pattern in which the component takes its properties apart is that of the first function that
may be the component. -/
theorem componentPattern_eq_findSome? :
    componentPattern file componentName propsName =
      (topFunctions file).findSome? (TopFunction.chosen? componentName propsName) := by
  rw [componentPattern, topFunctions, ← List.head?_filterMap, ← List.head?_filterMap,
    List.filterMap_flatMap, List.head?_filterMap, List.head?_flatMap, funext definitionPattern_eq]
  simp only [List.head?_filterMap]

/-- Of the functions without the name of the component those count that mention its props. -/
private theorem findSome?_chosen?_of_forall_name_ne {functions : List TopFunction}
    (hnames : ∀ f ∈ functions, f.name ≠ some componentName) :
    functions.findSome? (TopFunction.chosen? componentName propsName) =
      (functions.filter (·.mentions propsName)).findSome? TopFunction.pattern? := by
  rw [← List.head?_filterMap, ← List.head?_filterMap, List.filterMap_filter]
  exact congrArg List.head?
    (List.filterMap_congr fun f hf => TopFunction.chosen?_of_name_ne (hnames f hf))

/-- **The defaults are those of the function with the name of the component, unless a function in
front of it mentions the props declaration and has an object pattern too.**  Then the first such
function states them; what stands after the component does not matter. -/
theorem statedDefaults_of_component {before after : List TopFunction} {component : TopFunction}
    {elements : List PatternElement} (hfile : topFunctions file = before ++ component :: after)
    (hname : component.name = some componentName) (hpattern : component.pattern? = some elements)
    (hbefore : ∀ f ∈ before, f.name ≠ some componentName) :
    statedDefaults file componentName propsName =
      (((before.filter (·.mentions propsName)).findSome? TopFunction.pattern?).getD
        elements).filterMap elementDefault := by
  have hcomponent : component.chosen? componentName propsName = some elements :=
    (TopFunction.chosen?_of_name hname).trans hpattern
  rw [statedDefaults, componentPattern_eq_findSome?, hfile, List.findSome?_append,
    findSome?_chosen?_of_forall_name_ne hbefore, List.findSome?_cons, hcomponent]
  cases (before.filter (·.mentions propsName)).findSome? TopFunction.pattern? <;> rfl

/-- The component between a function that takes other properties and one that takes the same. -/
def sharedProps : ParsedFile :=
  ParsedFile.ofSource (Path.ofString "/T.ts") (Text.bytesOf
    ("const h=(\x7ba=1\x7d:H)=>a\nfunction T(\x7ba=2\x7d:TProps)\x7b\x7d\n" ++
      "function g(\x7ba=3\x7d:TProps)\x7b\x7d"))

theorem sharedProps_statedDefaults :
    ∃ before after component, topFunctions sharedProps = before ++ component :: after ∧
      component.name = some "T" ∧ component.pattern? = some [.shorthand "a" "2"] ∧
      (∀ f ∈ before, f.name ≠ some "T") ∧
      before.map (·.pattern?) = [some [.shorthand "a" "1"]] ∧
      after.map (·.pattern?) = [some [.shorthand "a" "3"]] ∧
      statedDefaults sharedProps "T" "TProps" = [("a", "2")] := by
  have hfile : topFunctions sharedProps =
      [⟨some "h", none, ⟨some ⟨some [.shorthand "a" "1"], some ":H"⟩⟩⟩] ++
        ⟨some "T", none, ⟨some ⟨some [.shorthand "a" "2"], some ":TProps"⟩⟩⟩ ::
        [⟨some "g", none, ⟨some ⟨some [.shorthand "a" "3"], some ":TProps"⟩⟩⟩] := by
    decide +kernel
  refine ⟨_, _, _, hfile, rfl, rfl, by decide, rfl, rfl, ?_⟩
  exact (statedDefaults_of_component hfile rfl rfl (by decide)).trans (by decide +kernel)

/-- A function that takes the same properties as the component and stands in front of it. -/
def sharedPropsBefore : ParsedFile :=
  ParsedFile.ofSource (Path.ofString "/T.ts") (Text.bytesOf
    "function h(\x7ba=1\x7d:TProps)\x7b\x7d\nfunction T(\x7ba=2\x7d:TProps)\x7b\x7d")

/-- The defaults are then those of the other function. -/
theorem sharedPropsBefore_statedDefaults :
    ((topFunctions sharedPropsBefore).filter (·.name = some "T")).map (·.pattern?) =
        [some [.shorthand "a" "2"]] ∧
      statedDefaults sharedPropsBefore "T" "TProps" = [("a", "1")] := by
  decide +kernel

end ComponentDocs.Extraction
