import JavaInspect.Semantics.Cache

/-!
# Annotation metadata

A resolved annotation is recognised by the qualified name of its type, an
unresolved one only by the ending of the name it was written by.
-/

namespace JavaInspect

namespace AnnotationUse

/-- Whether an annotation is resolved to the type of the given name. -/
def is (cache : Cache) (name : String) : AnnotationUse → Bool
  | .resolved type => cache.isNamed type name
  | .unresolved _ => false

/-- Whether the type of the annotation is known. -/
def isResolved : AnnotationUse → Bool
  | .resolved _ => true
  | .unresolved _ => false

/-- The name of the annotation: qualified when it is resolved, as written
otherwise. -/
def name (cache : Cache) : AnnotationUse → String
  | .resolved type => (cache.type type).qualifiedName
  | .unresolved token => token

/-- The token of an unresolved annotation. -/
def token? : AnnotationUse → Option String
  | .resolved _ => none
  | .unresolved token => some token

/-- The annotation as diagnostics show it. -/
def describe (cache : Cache) : AnnotationUse → String
  | .resolved type => s!"@{(cache.type type).qualifiedName}"
  | .unresolved token => s!"@{token}?"

end AnnotationUse

namespace Metadata

/-- Whether one of the annotations is resolved to the given type. -/
def isAnnotatedWith (cache : Cache) (annotations : List AnnotationUse) (name : String) : Bool :=
  annotations.any (·.is cache name)

/-- Whether one of the annotations is resolved to one of the given types. -/
def isAnnotatedWithAny (cache : Cache) (annotations : List AnnotationUse) (names : List String) :
    Bool :=
  annotations.any fun use => names.any fun name => use.is cache name

/-- The tokens of the unresolved annotations. -/
def unresolvedNames (annotations : List AnnotationUse) : List String :=
  annotations.filterMap AnnotationUse.token?

/-- Whether an unresolved annotation was written by a name with the given
ending. -/
def hasUnresolvedEndingWith (annotations : List AnnotationUse) (tail : String) : Bool :=
  (unresolvedNames annotations).any (Text.endsWith tail)

end Metadata

end JavaInspect
