import Assessment.Xml.Content

/-!
# Namespaces

A prefix stands for a namespace from the element that declares it inwards. Here the prefixes of
names give way to their namespaces in braces, attribute values get their meaning, attributes that are
not written are added, and declarations of namespaces disappear.
-/

namespace Assessment.Xml

open Assessment.Text

/-- The namespaces of prefixes, the innermost declaration first. No prefix is the namespace of
elements without one, and there an empty namespace is none. -/
abbrev Scope := List (Option (List Char) × List Char)

/-- The scope at the root of a document. -/
def Scope.initial : Scope := [(some "xml".toList, xmlNamespace)]

/-- The namespace of a prefix. -/
def Scope.lookup? (scope : Scope) (space : Option (List Char)) : Option (List Char) :=
  (scope.find? fun bound => bound.1 == space).map (·.2)

/-- The namespace of declarations themselves. -/
def declarationNamespace : List Char := "http://www.w3.org/2000/xmlns/".toList

/-- The prefix that an attribute declares, if it is a declaration. -/
def declaredPrefix? (name : List Char) : Option (Option (List Char)) :=
  if name = "xmlns".toList then some none else (after? "xmlns:".toList name).map some

/-- The scope inside an element that declares a prefix. The prefix of `xml` and its namespace belong
together, and the namespace of declarations cannot be bound. No closing brace can be part of a
namespace, because it ends namespaces in tags. -/
def Scope.declare (scope : Scope) (declared : Option (List Char)) (uri : List Char) :
    Except Fault Scope :=
  let isXml := declared == some "xml".toList
  if declared == some "xmlns".toList then .error .badNamespace
  else if uri.isEmpty && declared.isSome then .error .badNamespace
  else if uri.contains '}' then .error .badNamespace
  else if isXml != (uri == xmlNamespace) then .error .badNamespace
  else if !isXml && uri == declarationNamespace then .error .badNamespace
  else .ok ((declared, uri) :: scope)

/-- A name with its namespace in braces. -/
def inBraces (uri name : List Char) : List Char := '{' :: uri ++ '}' :: name

/-- The tag of an element. -/
def Scope.tag (scope : Scope) (name : List Char) : Except Fault (List Char) :=
  match splitName name with
  | (none, part) =>
    match scope.lookup? none with
    | some (c :: uri) => .ok (inBraces (c :: uri) part)
    | _ => .ok part
  | (space, part) =>
    match scope.lookup? space with
    | some uri => .ok (inBraces uri part)
    | none => .error .unboundPrefix

/-- The name of an attribute. Without a prefix it is in no namespace. -/
def Scope.attributeTag (scope : Scope) (name : List Char) : Except Fault (List Char) :=
  match splitName name with
  | (none, part) => .ok part
  | (space, part) =>
    match scope.lookup? space with
    | some uri => .ok (inBraces uri part)
    | none => .error .unboundPrefix

/-- Some name occurs twice. -/
def hasRepeated : List (List Char) → Bool
  | [] => false
  | name :: names => names.contains name || hasRepeated names

/-- The attributes of an element with their values, those that are written and then the declared
ones that are not. -/
def attributeValues (dtd : Dtd) (element : List Char) (written : List RawAttribute) :
    Except Fault (List (List Char × List Char)) := do
  let given ← written.mapM fun (name, s) => do
    let words := ((dtd.rule? element name).map (·.words)).getD false
    return (name, ← dtd.value words s)
  let added := (dtd.rulesOf element).filterMap fun rule =>
    if written.any fun given => given.1 == rule.name then none
    else rule.fallback.map fun value => (rule.name, value)
  return given ++ added

/-- The scope inside an element with the given attributes. -/
def Scope.inside (scope : Scope) (attributes : List (List Char × List Char)) :
    Except Fault Scope :=
  attributes.foldlM
    (fun scope (name, value) =>
      match declaredPrefix? name with
      | some declared => scope.declare declared value
      | none => .ok scope)
    scope

/-- A piece of text joined to the nodes after it. -/
def joinText (s : List Char) : List Node → List Node
  | .text t :: nodes => .text (s ++ t) :: nodes
  | nodes => if s.isEmpty then nodes else .text s :: nodes

mutual

/-- The element of a written tree, in the scope around it. -/
def resolve (dtd : Dtd) (scope : Scope) : Written → Except Fault Node
  | .text s => .ok (.text s)
  | .element name written children => do
    if hasRepeated (written.map (·.1)) then throw .duplicateAttribute
    let values ← attributeValues dtd name written
    let scope ← scope.inside values
    let shown := values.filter fun (name, _) => (declaredPrefix? name).isNone
    let attributes ← shown.mapM fun (name, value) => do return (← scope.attributeTag name, value)
    if hasRepeated (attributes.map (·.1)) then throw .duplicateAttribute
    let tag ← scope.tag name
    let nodes ← resolveAll dtd scope children
    return .element tag attributes nodes

/-- The nodes of written trees. Pieces of text that meet become one. -/
def resolveAll (dtd : Dtd) (scope : Scope) : List Written → Except Fault (List Node)
  | [] => .ok []
  | tree :: trees => do
    match ← resolve dtd scope tree with
    | .text s => return joinText s (← resolveAll dtd scope trees)
    | node => return node :: (← resolveAll dtd scope trees)

end

end Assessment.Xml
