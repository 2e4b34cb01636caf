import JavaOutline.Java.Stmt

/-!
# Declarations

Types with their members, and whole source files. Methods can be listed, nested types included, and
looked up by name; a look-up finds the first method of that name in the order of the source.
-/

namespace JavaOutline

/-- A field. -/
structure Field where
  /-- Where the declaration stands. -/
  span : Span
  /-- The type. -/
  type : TypeRef
  /-- The name of the first variable declared. -/
  name : String
  deriving Repr

/-- A method or constructor. -/
structure Method where
  /-- Where the declaration stands. -/
  span : Span
  /-- The result type; a constructor has none. -/
  result : Option TypeRef
  /-- The name. -/
  name : Name
  /-- The parameters. -/
  parameters : List Parameter
  /-- The body, unless the method is abstract or native. -/
  body : Option Block

/-- Whether a method is a constructor. -/
def Method.isConstructor (method : Method) : Bool := method.result.isNone

/-- A type declaration without its members. -/
structure TypeHeader where
  /-- Where the whole declaration stands. -/
  span : Span
  /-- The kind of type. -/
  kind : TypeKind
  /-- The name. -/
  name : Name
  deriving Repr

/-- A member of a type. -/
inductive Member where
  | field (field : Field)
  | method (method : Method)
  | initializer (span : Span) (isStatic : Bool) (body : Block)
  | type (header : TypeHeader) (members : List Member)

/-- A type with its members. -/
structure TypeDecl where
  /-- The declaration without the members. -/
  header : TypeHeader
  /-- The members in order. -/
  members : List Member

/-- A source file. -/
structure CompilationUnit where
  /-- Where the file stands: all of the text. -/
  span : Span
  /-- The name of the package. -/
  package : Option String
  /-- The types of the file. -/
  types : List TypeDecl

mutual

/-- The methods of a member, nested types included. -/
def Member.methods : Member → List Method
  | .method found => [found]
  | .type _ members => Member.methodsOf members
  | .field _ | .initializer .. => []

/-- The methods of some members, nested types included. -/
def Member.methodsOf : List Member → List Method
  | [] => []
  | member :: members => member.methods ++ Member.methodsOf members

end

mutual

/-- The first method of a name at or below a member. -/
def Member.findMethod? (name : String) : Member → Option Method
  | .method found => if found.name.text = name then some found else none
  | .type _ members => Member.findMethodIn? name members
  | .field _ | .initializer .. => none

/-- The first method of a name at or below some members. -/
def Member.findMethodIn? (name : String) : List Member → Option Method
  | [] => none
  | member :: members => (member.findMethod? name).or (Member.findMethodIn? name members)

end

/-- The methods of a file, nested types included, in the order of the source. -/
def CompilationUnit.methods (unit : CompilationUnit) : List Method :=
  unit.types.flatMap fun type => Member.methodsOf type.members

/-- The first method of a name in a file. -/
def CompilationUnit.findMethod? (unit : CompilationUnit) (name : String) : Option Method :=
  unit.types.findSome? fun type => Member.findMethodIn? name type.members

end JavaOutline
