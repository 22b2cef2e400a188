import JavaInspect.Library.ClassPath

/-!
# The class path of the language

A subset of the JDK that every compilation unit can refer to. Type parameters
are erased to their bounds.
-/

namespace JavaInspect

namespace Jdk

open LibraryType

/-! ## Core types of the language

The root type, the class of classes, and the interfaces every program meets.
-/

/-- The description of `java.lang.Object`. -/
def objectType : LibraryType :=
  { name := "java.lang.Object"
    constructors :=
      [constructor []]
    methods :=
      [method "toString" [] "java.lang.String",
       method "equals" ["java.lang.Object"] "boolean",
       method "hashCode" [] "int",
       method "getClass" [] "java.lang.Class",
       method "clone" [] "java.lang.Object",
       procedure "finalize" []] }

/-- The description of `java.lang.Class`. -/
def classType : LibraryType :=
  { name := "java.lang.Class"
    methods :=
      [method "getName" [] "java.lang.String",
       method "getSimpleName" [] "java.lang.String"] }

/-- The description of `java.io.Serializable`. -/
def serializableType : LibraryType :=
  { name := "java.io.Serializable"
    kind := .interface }

/-- The description of `java.lang.Comparable`. -/
def comparableType : LibraryType :=
  { name := "java.lang.Comparable"
    kind := .interface
    methods :=
      [method "compareTo" ["java.lang.Object"] "int"] }

/-- The description of `java.lang.Cloneable`. -/
def cloneableType : LibraryType :=
  { name := "java.lang.Cloneable"
    kind := .interface }

/-- The description of `java.lang.AutoCloseable`. -/
def autoCloseableType : LibraryType :=
  { name := "java.lang.AutoCloseable"
    kind := .interface
    methods :=
      [procedure "close" []] }

/-- The description of `java.lang.Runnable`. -/
def runnableType : LibraryType :=
  { name := "java.lang.Runnable"
    kind := .interface
    annotations := ["java.lang.FunctionalInterface"]
    methods :=
      [procedure "run" []] }

/-- The description of `java.lang.Iterable`. -/
def iterableType : LibraryType :=
  { name := "java.lang.Iterable"
    kind := .interface
    methods :=
      [method "iterator" [] "java.util.Iterator"] }

/-- The core types in class path order. -/
def languageTypes : List LibraryType :=
  [objectType, classType, serializableType, comparableType, cloneableType, autoCloseableType,
    runnableType, iterableType]

/-! ## Texts

Character sequences, strings and string builders.
-/

/-- The description of `java.lang.CharSequence`. -/
def charSequenceType : LibraryType :=
  { name := "java.lang.CharSequence"
    kind := .interface
    methods :=
      [method "length" [] "int",
       method "charAt" ["int"] "char",
       method "isEmpty" [] "boolean",
       method "subSequence" ["int", "int"] "java.lang.CharSequence",
       method "toString" [] "java.lang.String"] }

/-- The description of `java.lang.Appendable`. -/
def appendableType : LibraryType :=
  { name := "java.lang.Appendable"
    kind := .interface
    methods :=
      [method "append" ["java.lang.CharSequence"] "java.lang.Appendable",
       method "append" ["char"] "java.lang.Appendable"] }

/-- The description of `java.lang.String`. -/
def stringType : LibraryType :=
  { name := "java.lang.String"
    interfaces := ["java.io.Serializable", "java.lang.Comparable", "java.lang.CharSequence"]
    constructors :=
      [constructor [],
       constructor ["java.lang.String"],
       constructor ["char[]"]]
    methods :=
      [method "length" [] "int",
       method "isEmpty" [] "boolean",
       method "isBlank" [] "boolean",
       method "charAt" ["int"] "char",
       method "equals" ["java.lang.Object"] "boolean",
       method "equalsIgnoreCase" ["java.lang.String"] "boolean",
       method "compareTo" ["java.lang.String"] "int",
       method "contains" ["java.lang.CharSequence"] "boolean",
       method "startsWith" ["java.lang.String"] "boolean",
       method "endsWith" ["java.lang.String"] "boolean",
       method "indexOf" ["java.lang.String"] "int",
       method "substring" ["int"] "java.lang.String",
       method "substring" ["int", "int"] "java.lang.String",
       method "trim" [] "java.lang.String",
       method "strip" [] "java.lang.String",
       method "toLowerCase" [] "java.lang.String",
       method "toUpperCase" [] "java.lang.String",
       method "replace" ["java.lang.CharSequence", "java.lang.CharSequence"] "java.lang.String",
       method "split" ["java.lang.String"] "java.lang.String[]",
       method "toCharArray" [] "char[]",
       method "toString" [] "java.lang.String",
       method "hashCode" [] "int",
       method "valueOf" ["java.lang.Object"] "java.lang.String",
       variadic "format" ["java.lang.String", "java.lang.Object[]"] "java.lang.String",
       variadic "join" ["java.lang.CharSequence",
          "java.lang.CharSequence[]"] "java.lang.String"] }

/-- The description of `java.lang.AbstractStringBuilder`. -/
def abstractStringBuilderType : LibraryType :=
  { name := "java.lang.AbstractStringBuilder"
    interfaces := ["java.lang.Appendable", "java.lang.CharSequence"]
    methods :=
      [method "length" [] "int",
       method "isEmpty" [] "boolean",
       method "charAt" ["int"] "char",
       method "capacity" [] "int",
       procedure "setLength" ["int"],
       method "indexOf" ["java.lang.String"] "int",
       method "substring" ["int"] "java.lang.String"] }

/-- The description of `java.lang.StringBuilder`. -/
def stringBuilderType : LibraryType :=
  { name := "java.lang.StringBuilder"
    superclass := some "java.lang.AbstractStringBuilder"
    interfaces := ["java.io.Serializable", "java.lang.Comparable", "java.lang.CharSequence"]
    constructors :=
      [constructor [],
       constructor ["int"],
       constructor ["java.lang.String"],
       constructor ["java.lang.CharSequence"]]
    methods :=
      [method "append" ["java.lang.String"] "java.lang.StringBuilder",
       method "append" ["java.lang.Object"] "java.lang.StringBuilder",
       method "append" ["java.lang.CharSequence"] "java.lang.StringBuilder",
       method "append" ["int"] "java.lang.StringBuilder",
       method "append" ["long"] "java.lang.StringBuilder",
       method "append" ["char"] "java.lang.StringBuilder",
       method "append" ["boolean"] "java.lang.StringBuilder",
       method "insert" ["int", "java.lang.String"] "java.lang.StringBuilder",
       method "reverse" [] "java.lang.StringBuilder",
       method "deleteCharAt" ["int"] "java.lang.StringBuilder",
       method "toString" [] "java.lang.String"] }

/-- The description of `java.lang.StringBuffer`. -/
def stringBufferType : LibraryType :=
  { name := "java.lang.StringBuffer"
    superclass := some "java.lang.AbstractStringBuilder"
    interfaces := ["java.io.Serializable", "java.lang.Comparable", "java.lang.CharSequence"]
    constructors :=
      [constructor [],
       constructor ["int"],
       constructor ["java.lang.String"],
       constructor ["java.lang.CharSequence"]]
    methods :=
      [method "append" ["java.lang.String"] "java.lang.StringBuffer",
       method "append" ["java.lang.Object"] "java.lang.StringBuffer",
       method "append" ["java.lang.CharSequence"] "java.lang.StringBuffer",
       method "append" ["int"] "java.lang.StringBuffer",
       method "append" ["long"] "java.lang.StringBuffer",
       method "append" ["char"] "java.lang.StringBuffer",
       method "append" ["boolean"] "java.lang.StringBuffer",
       method "insert" ["int", "java.lang.String"] "java.lang.StringBuffer",
       method "reverse" [] "java.lang.StringBuffer",
       method "toString" [] "java.lang.String"] }

/-- The text types in class path order. -/
def textTypes : List LibraryType :=
  [charSequenceType, appendableType, stringType, abstractStringBuilderType, stringBuilderType,
    stringBufferType]

/-! ## Boxed values

Numbers, booleans and characters as objects, and the bases of enums and records.
-/

/-- The description of `java.lang.Number`. -/
def numberType : LibraryType :=
  { name := "java.lang.Number"
    interfaces := ["java.io.Serializable"]
    methods :=
      [method "intValue" [] "int",
       method "longValue" [] "long",
       method "doubleValue" [] "double"] }

/-- The description of `java.lang.Integer`. -/
def integerType : LibraryType :=
  { name := "java.lang.Integer"
    superclass := some "java.lang.Number"
    interfaces := ["java.lang.Comparable"]
    methods :=
      [method "parseInt" ["java.lang.String"] "int",
       method "valueOf" ["int"] "java.lang.Integer",
       method "toString" [] "java.lang.String"] }

/-- The description of `java.lang.Long`. -/
def longType : LibraryType :=
  { name := "java.lang.Long"
    superclass := some "java.lang.Number"
    interfaces := ["java.lang.Comparable"]
    methods :=
      [method "parseLong" ["java.lang.String"] "long",
       method "valueOf" ["long"] "java.lang.Long"] }

/-- The description of `java.lang.Double`. -/
def doubleType : LibraryType :=
  { name := "java.lang.Double"
    superclass := some "java.lang.Number"
    interfaces := ["java.lang.Comparable"] }

/-- The description of `java.lang.Boolean`. -/
def booleanType : LibraryType :=
  { name := "java.lang.Boolean"
    interfaces := ["java.io.Serializable", "java.lang.Comparable"]
    methods :=
      [method "booleanValue" [] "boolean",
       method "parseBoolean" ["java.lang.String"] "boolean"] }

/-- The description of `java.lang.Character`. -/
def characterType : LibraryType :=
  { name := "java.lang.Character"
    interfaces := ["java.io.Serializable", "java.lang.Comparable"]
    methods :=
      [method "charValue" [] "char"] }

/-- The description of `java.lang.Enum`. -/
def enumType : LibraryType :=
  { name := "java.lang.Enum"
    interfaces := ["java.lang.Comparable", "java.io.Serializable"]
    methods :=
      [method "name" [] "java.lang.String",
       method "ordinal" [] "int",
       method "toString" [] "java.lang.String"] }

/-- The description of `java.lang.Record`. -/
def recordType : LibraryType :=
  { name := "java.lang.Record"
    methods :=
      [method "equals" ["java.lang.Object"] "boolean",
       method "hashCode" [] "int",
       method "toString" [] "java.lang.String"] }

/-- The boxes and the bases of enums and records, in class path order. -/
def boxTypes : List LibraryType :=
  [numberType, integerType, longType, doubleType, booleanType, characterType, enumType,
    recordType]

/-! ## Throwables

Errors and exceptions.
-/

/-- The description of `java.lang.Throwable`. -/
def throwableType : LibraryType :=
  { name := "java.lang.Throwable"
    interfaces := ["java.io.Serializable"]
    constructors :=
      [constructor [],
       constructor ["java.lang.String"],
       constructor ["java.lang.String", "java.lang.Throwable"]]
    methods :=
      [method "getMessage" [] "java.lang.String",
       method "getCause" [] "java.lang.Throwable",
       procedure "printStackTrace" []] }

/-- The description of `java.lang.Exception`. -/
def exceptionType : LibraryType :=
  { name := "java.lang.Exception"
    superclass := some "java.lang.Throwable"
    constructors :=
      [constructor [],
       constructor ["java.lang.String"],
       constructor ["java.lang.String", "java.lang.Throwable"]] }

/-- The description of `java.lang.RuntimeException`. -/
def runtimeExceptionType : LibraryType :=
  { name := "java.lang.RuntimeException"
    superclass := some "java.lang.Exception"
    constructors :=
      [constructor [],
       constructor ["java.lang.String"],
       constructor ["java.lang.String", "java.lang.Throwable"]] }

/-- The description of `java.lang.IllegalArgumentException`. -/
def illegalArgumentExceptionType : LibraryType :=
  { name := "java.lang.IllegalArgumentException"
    superclass := some "java.lang.RuntimeException"
    constructors :=
      [constructor [],
       constructor ["java.lang.String"]] }

/-- The description of `java.lang.IllegalStateException`. -/
def illegalStateExceptionType : LibraryType :=
  { name := "java.lang.IllegalStateException"
    superclass := some "java.lang.RuntimeException"
    constructors :=
      [constructor [],
       constructor ["java.lang.String"]] }

/-- The description of `java.io.IOException`. -/
def iOExceptionType : LibraryType :=
  { name := "java.io.IOException"
    superclass := some "java.lang.Exception"
    constructors :=
      [constructor [],
       constructor ["java.lang.String"]] }

/-- The throwables in class path order. -/
def throwableTypes : List LibraryType :=
  [throwableType, exceptionType, runtimeExceptionType, illegalArgumentExceptionType,
    illegalStateExceptionType, iOExceptionType]

/-! ## Annotations

The annotations of the language itself.
-/

/-- The description of `java.lang.Override`. -/
def overrideType : LibraryType :=
  { name := "java.lang.Override"
    kind := .annotationType }

/-- The description of `java.lang.Deprecated`. -/
def deprecatedType : LibraryType :=
  { name := "java.lang.Deprecated"
    kind := .annotationType }

/-- The description of `java.lang.FunctionalInterface`. -/
def functionalInterfaceType : LibraryType :=
  { name := "java.lang.FunctionalInterface"
    kind := .annotationType }

/-- The description of `java.lang.SafeVarargs`. -/
def safeVarargsType : LibraryType :=
  { name := "java.lang.SafeVarargs"
    kind := .annotationType }

/-- The description of `java.lang.SuppressWarnings`. -/
def suppressWarningsType : LibraryType :=
  { name := "java.lang.SuppressWarnings"
    kind := .annotationType
    methods :=
      [method "value" [] "java.lang.String[]"] }

/-- The annotations in class path order. -/
def annotationTypes : List LibraryType :=
  [overrideType, deprecatedType, functionalInterfaceType, safeVarargsType, suppressWarningsType]

/-! ## Collections

Iterators, collections, maps and the helpers beside them.
-/

/-- The description of `java.util.Iterator`. -/
def iteratorType : LibraryType :=
  { name := "java.util.Iterator"
    kind := .interface
    methods :=
      [method "hasNext" [] "boolean",
       method "next" [] "java.lang.Object"] }

/-- The description of `java.util.Collection`. -/
def collectionType : LibraryType :=
  { name := "java.util.Collection"
    kind := .interface
    interfaces := ["java.lang.Iterable"]
    methods :=
      [method "size" [] "int",
       method "isEmpty" [] "boolean",
       method "contains" ["java.lang.Object"] "boolean",
       method "add" ["java.lang.Object"] "boolean"] }

/-- The description of `java.util.List`. -/
def listType : LibraryType :=
  { name := "java.util.List"
    kind := .interface
    interfaces := ["java.util.Collection"]
    methods :=
      [method "get" ["int"] "java.lang.Object"] }

/-- The description of `java.util.Set`. -/
def setType : LibraryType :=
  { name := "java.util.Set"
    kind := .interface
    interfaces := ["java.util.Collection"] }

/-- The description of `java.util.Map`. -/
def mapType : LibraryType :=
  { name := "java.util.Map"
    kind := .interface
    methods :=
      [method "get" ["java.lang.Object"] "java.lang.Object",
       method "put" ["java.lang.Object", "java.lang.Object"] "java.lang.Object",
       method "size" [] "int",
       method "isEmpty" [] "boolean"] }

/-- The description of `java.util.ArrayList`. -/
def arrayListType : LibraryType :=
  { name := "java.util.ArrayList"
    interfaces := ["java.util.List"]
    constructors :=
      [constructor [],
       constructor ["int"]] }

/-- The description of `java.util.HashMap`. -/
def hashMapType : LibraryType :=
  { name := "java.util.HashMap"
    interfaces := ["java.util.Map"]
    constructors :=
      [constructor []] }

/-- The description of `java.util.HashSet`. -/
def hashSetType : LibraryType :=
  { name := "java.util.HashSet"
    interfaces := ["java.util.Set"]
    constructors :=
      [constructor []] }

/-- The description of `java.util.Objects`. -/
def objectsType : LibraryType :=
  { name := "java.util.Objects"
    methods :=
      [method "equals" ["java.lang.Object", "java.lang.Object"] "boolean",
       variadic "hash" ["java.lang.Object[]"] "int",
       method "requireNonNull" ["java.lang.Object"] "java.lang.Object"] }

/-- The collections and their helpers, in class path order. -/
def collectionTypes : List LibraryType :=
  [iteratorType, collectionType, listType, setType, mapType, arrayListType, hashMapType,
    hashSetType, objectsType]

/-! ## Optional values

Containers of at most one value.
-/

/-- The description of `java.util.Optional`. -/
def optionalType : LibraryType :=
  { name := "java.util.Optional"
    methods :=
      [method "of" ["java.lang.Object"] "java.util.Optional",
       method "ofNullable" ["java.lang.Object"] "java.util.Optional",
       method "empty" [] "java.util.Optional",
       method "isPresent" [] "boolean",
       method "isEmpty" [] "boolean",
       method "get" [] "java.lang.Object",
       method "orElse" ["java.lang.Object"] "java.lang.Object"] }

/-- The description of `java.util.OptionalInt`. -/
def optionalIntType : LibraryType :=
  { name := "java.util.OptionalInt"
    methods :=
      [method "isPresent" [] "boolean",
       method "getAsInt" [] "int"] }

/-- The description of `java.util.OptionalLong`. -/
def optionalLongType : LibraryType :=
  { name := "java.util.OptionalLong"
    methods :=
      [method "isPresent" [] "boolean",
       method "getAsLong" [] "long"] }

/-- The description of `java.util.OptionalDouble`. -/
def optionalDoubleType : LibraryType :=
  { name := "java.util.OptionalDouble"
    methods :=
      [method "isPresent" [] "boolean",
       method "getAsDouble" [] "double"] }

/-- The optional values in class path order. -/
def optionalTypes : List LibraryType :=
  [optionalType, optionalIntType, optionalLongType, optionalDoubleType]

end Jdk

/-- The types of the JDK subset. -/
def ClassPath.jdk : ClassPath :=
  ⟨Jdk.languageTypes ++ Jdk.textTypes ++ Jdk.boxTypes ++ Jdk.throwableTypes ++
    Jdk.annotationTypes ++ Jdk.collectionTypes ++ Jdk.optionalTypes⟩

end JavaInspect
