import StructuralTypes.Prelude

/-!
# Modules and their attributes

A type can be named as an attribute of a module. The catalog says which modules there are and what
their attributes are: types, or things of some other class.
-/

namespace StructuralTypes.CommandLine

/-- What an attribute holds. -/
inductive Found where
  | type (t : Ty)
  | thing (className : String)

namespace Found

def ofReferent : Referent → Found
  | .type t => .type t
  | .plain _ v => .thing v.className

end Found

/-- The kinds of modules. Only a package can have further modules below it, unless the path to them
is something that cannot be gone through. The entry point is still being loaded while the command
line runs. -/
inductive ModuleKind where
  | package
  | brokenPackage (pathClass : String)
  | plain
  | entryPoint
deriving DecidableEq

/-- A module with the attributes that it sets itself. What it calls itself may differ from the name
under which it is found. The class of its fallback, if it has one, is that of a thing that would be
called for every attribute it lacks; none that a module has can be called. -/
structure Module where
  name : String
  kind : ModuleKind
  attributes : List (String × Found)
  title? : Option String
  fallback? : Option String

/-- A look-up that can fail, or find nothing for a reason. -/
abbrev Lookup := ExceptT String Attempt

namespace Catalog

def things (className : String) (names : List String) : List (String × Found) :=
  names.map fun name => (name, .thing className)

/-- The attributes that a module cannot set. -/
def fixed : List (String × Found) := things "type" ["__class__"] ++ things "dict" ["__dict__"]

/-- The attributes that a module has by being an object, unless it sets them. -/
def inherited : List (String × Found) :=
  things "dict" ["__annotations__"]
    ++ things "method-wrapper" ["__delattr__", "__eq__", "__ge__", "__getattribute__", "__gt__",
      "__hash__", "__init__", "__le__", "__lt__", "__ne__", "__repr__", "__setattr__", "__str__"]
    ++ things "builtin_function_or_method" ["__dir__", "__format__", "__getstate__",
      "__init_subclass__", "__new__", "__reduce__", "__reduce_ex__", "__sizeof__",
      "__subclasshook__"]

/-- The parts of a dotted name that end before a dot, shortest first, and the name itself. -/
def stages (name : String) : List String :=
  go [] name.toList
where
  go (seen : List Char) : List Char → List String
    | [] => [String.ofList seen.reverse]
    | '.' :: rest => String.ofList seen.reverse :: go ('.' :: seen) rest
    | c :: rest => go (c :: seen) rest

def fault {α : Type} (f : Fault) : Lookup α := ExceptT.mk (.error f)

def nothing {α : Type} (reason : String) : Lookup α := ExceptT.mk (.ok (.error reason))

/-- What comes of an attribute that a module lacks. -/
def lacking {α : Type} (m : Module) (reason : String) : Lookup α :=
  match m.fallback? with
  | some className => fault (.notCallable className)
  | none => nothing reason

def moduleNamed (modules : List Module) (name : String) : Lookup Module :=
  match modules.find? (·.name = name) with
  | some m => return m
  | none => nothing ("No module named " ++ Text.quote name)

/-- Goes down from a module stage by stage, or says which stage is missing. -/
def descend (modules : List Module) : Module → List String → Lookup Module
  | m, [] => return m
  | m, stage :: rest =>
    match m.kind with
    | .package => do descend modules (← moduleNamed modules stage) rest
    | .brokenPackage pathClass => fault (.notIterable pathClass)
    | _ => lacking m ("No module named " ++ Text.quote stage ++ "; " ++ Text.quote m.name
        ++ " is not a package")

/-- The module with a dotted name. -/
def locate (modules : List Module) (name : String) : Lookup Module :=
  match stages name with
  | [] => moduleNamed modules name
  | top :: below => do descend modules (← moduleNamed modules top) below

/-- Why a module does not have an attribute. -/
def missing (m : Module) (name : String) : String :=
  let title := match m.title? with
    | some title => " '" ++ title ++ "'"
    | none => ""
  let complaint := "module" ++ title ++ " has no attribute '" ++ name ++ "'"
  match m.kind with
  | .entryPoint =>
    "partially initialized " ++ complaint ++ " (most likely due to a circular import)"
  | _ => complaint

/-- Finds an attribute of a module. A name that no module can have is a fault; anything else that
cannot be found comes with a reason. -/
def find (modules : List Module) (moduleName name : String) : Lookup Found :=
  if moduleName.startsWith "." then fault (.relativeModuleName moduleName)
  else if moduleName.isEmpty then fault .emptyModuleName
  else do
    let m ← locate modules moduleName
    match (fixed ++ m.attributes ++ inherited).lookup name with
    | some found => return found
    | none => lacking m (missing m name)

/-- What every module of the library sets. -/
def bare : List (String × Found) :=
  things "str" ["__name__", "__package__", "__file__", "__cached__"]
    ++ things "dict" ["__builtins__"]
    ++ things "ModuleSpec" ["__spec__"] ++ things "SourceFileLoader" ["__loader__"]

/-- What a documented module of the library sets. -/
def common : List (String × Found) := things "str" ["__doc__"] ++ bare

/-- What the package offers directly. -/
def offered (p : Prelude) : List (String × Found) :=
  ("Any", .type p.any) ::
    things "type" ["Type", "TypischError", "CyclicLattice"]
    ++ things "function" ["predicate", "intersection", "union", "difference", "without", "unary",
      "suchthat", "alias", "unalias", "doc", "compose_type", "supersedes"]

/-- The modules of the library itself, with their attributes. The package can also be named as a
module of its own. -/
def contents (p : Prelude) : List (String × ModuleKind × List (String × Found)) :=
  [⟨"typisch", .package,
      offered p
      ++ things "module" ["ontology", "algebra", "canonical", "sugar", "subsumption", "diagnostics",
        "render", "primitive", "cmdline"]
      ++ things "list" ["__path__"] ++ common⟩,
    ⟨"typisch.__init__", .plain, offered p ++ common⟩,
    ⟨"typisch.ontology", .plain,
      things "module" ["copy"]
      ++ things "_CallableType" ["Callable"] ++ things "_SpecialForm" ["Optional"]
      ++ things "_SpecialGenericAlias" ["Sequence"]
      ++ things "str" ["DOC_ROOT"] ++ things "function" ["NamedTuple", "doc_link"]
      ++ things "type" ["Guard", "Operands", "Exclusion", "Container", "Type"] ++ common⟩,
    ⟨"typisch.algebra", .plain,
      ("Any", .type p.any) ::
      things "_CallableType" ["Callable"] ++ things "_SpecialGenericAlias" ["Iterable"]
      ++ things "type" ["cached_property", "Type", "Guard", "Operands", "Exclusion", "Container",
        "Anything", "Predicate", "Compound", "Intersection", "Union", "Difference", "Without",
        "Unary"]
      ++ things "function" ["doc_link", "merge_operands", "merge_difference_operands",
        "merge_subsets", "intersection_supersets", "flat_map", "unique", "same_operands",
        "operational_name", "predicate", "intersection", "union", "difference", "without", "unary"]
      ++ common⟩,
    ⟨"typisch.canonical", .plain,
      things "_CallableType" ["Callable"] ++ things "_SpecialGenericAlias" ["Iterable", "Sequence"]
      ++ things "type" ["Type"]
      ++ things "function" ["flat_map", "by_name", "_sorted", "_splice", "_operands", "_subsets",
        "merge_operands", "merge_difference_operands", "merge_subsets", "intersection_supersets",
        "unique", "same_operands", "operational_name"]
      ++ common⟩,
    ⟨"typisch.sugar", .plain,
      things "builtin_function_or_method" ["reduce"] ++ things "_CallableType" ["Callable"]
      ++ things "_SpecialGenericAlias" ["Sequence"] ++ things "type" ["Type"]
      ++ things "function" ["intersection", "predicate", "suchthat", "alias", "unalias", "doc",
        "compose_type"]
      ++ common⟩,
    ⟨"typisch.subsumption", .plain,
      things "_CallableType" ["Callable"] ++ things "type" ["Type", "CyclicLattice", "_Search"]
      ++ things "function" ["supersedes"] ++ common⟩,
    ⟨"typisch.diagnostics", .plain,
      things "module" ["sys", "random"] ++ things "_SpecialGenericAlias" ["Sequence"]
      ++ things "type" ["Type", "TypischError", "CyclicLattice", "TooManyIssues", "Complaint",
        "Report"]
      ++ things "function" ["strongly_connected_components_hashable", "_outburst", "_reachable",
        "check_lattice"]
      ++ things "tuple" ["EDGES"] ++ common⟩,
    ⟨"typisch.render", .plain,
      things "type" ["Visitor", "Type", "Outline"] ++ things "module" ["algebra"]
      ++ things "function" ["outline"] ++ common⟩,
    ⟨"typisch.primitive", .plain,
      p.types.map (fun (name, t) => (name, .type t))
      ++ things "module" ["math"] ++ things "type" ["Decimal", "Type"]
      ++ things "ABCMeta" ["_Number", "_Integral", "_Real", "_Mapping"]
      ++ things "function" ["predicate", "unary", "union", "alias", "suchthat", "_is_null",
        "_is_boolean", "_is_number", "_is_integral", "_is_string", "_is_array", "_is_mapping",
        "elements", "values", "_built_in_type", "array_of", "mapping_of", "optional"]
      ++ things "dict" ["PRELUDE"] ++ common⟩,
    ⟨"typisch.cmdline", .plain,
      things "module" ["sys", "json", "argparse", "importlib"] ++ things "type" ["Path"]
      ++ things "ArgumentParser" ["parser"] ++ things "function" ["resolve", "run", "main"]
      ++ common⟩,
    ⟨"typisch.__main__", .entryPoint,
      things "function" ["main"] ++ things "NoneType" ["__doc__"] ++ bare⟩]

def library (p : Prelude) : List Module :=
  (contents p).map fun (name, kind, attributes) => ⟨name, kind, attributes, some name, none⟩

end Catalog

end StructuralTypes.CommandLine
