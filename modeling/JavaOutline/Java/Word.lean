/-!
# Reserved words

The words of Java that are no identifiers, and those among them that name a primitive type.
-/

namespace JavaOutline

/-- The reserved words, with the literals `true`, `false` and `null`. -/
def reservedWords : List String :=
  ["abstract", "assert", "boolean", "break", "byte", "case", "catch", "char", "class", "const",
   "continue", "default", "do", "double", "else", "enum", "extends", "false", "final", "finally",
   "float", "for", "goto", "if", "implements", "import", "instanceof", "int", "interface", "long",
   "native", "new", "null", "package", "private", "protected", "public", "return", "short",
   "static", "strictfp", "super", "switch", "synchronized", "this", "throw", "throws", "transient",
   "true", "try", "void", "volatile", "while"]

/-- The names of the primitive types, `void` among them. -/
def primitiveTypes : List String :=
  ["boolean", "byte", "char", "short", "int", "long", "float", "double", "void"]

/-- The words that may stand before a declaration. -/
def modifierWords : List String :=
  ["public", "protected", "private", "static", "final", "abstract", "default", "synchronized",
   "native", "transient", "volatile", "sealed", "strictfp"]

/-- The reserved words that may begin the operand of a cast. -/
def operandWords : List String :=
  ["this", "super", "new", "true", "false", "null", "switch"]

/-- Whether a word is reserved. -/
def isReserved (word : String) : Bool := reservedWords.contains word

/-- Whether a word names a primitive type. -/
def isPrimitive (word : String) : Bool := primitiveTypes.contains word

end JavaOutline
