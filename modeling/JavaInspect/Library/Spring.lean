import JavaInspect.Library.ClassPath

/-!
# Framework types

The types of the Spring framework and of servlets that rules and filters know by
name, as far as source files refer to them.
-/

namespace JavaInspect

namespace Spring

/-- The annotations of the framework, without the common part of their names. -/
def annotationNames : List String :=
  ["stereotype.Component", "stereotype.Service", "stereotype.Repository",
    "stereotype.Controller", "context.annotation.Configuration", "context.annotation.Bean",
    "beans.factory.annotation.Autowired", "transaction.annotation.Transactional",
    "web.bind.annotation.RequestMapping", "web.bind.annotation.GetMapping",
    "web.bind.annotation.PostMapping", "web.bind.annotation.RequestParam",
    "web.bind.annotation.SessionAttributes"]

/-- The annotation types of the framework. -/
def annotationTypes : List LibraryType :=
  annotationNames.map fun name =>
    { name := "org.springframework." ++ name, kind := .annotationType }

/-- The interface that ends sessions. -/
def sessionStatus : LibraryType :=
  { name := "org.springframework.web.bind.support.SessionStatus"
    kind := .interface
    methods :=
      [{ name := "setComplete" }, { name := "isComplete", returns := some "boolean" }] }

/-- The interface above all query interfaces. -/
def repository : LibraryType :=
  { name := "org.springframework.data.repository.Repository", kind := .interface }

/-- The query interface of stored objects. -/
def crudRepository : LibraryType :=
  { name := "org.springframework.data.repository.CrudRepository"
    kind := .interface
    interfaces := [repository.name]
    methods := [{ name := "count", returns := some "long" }] }

/-- The class above all servlets. -/
def genericServlet : LibraryType :=
  { name := "javax.servlet.GenericServlet"
    methods := [{ name := "init" }, { name := "destroy" }] }

/-- The servlets of web requests. -/
def httpServlet : LibraryType :=
  { name := "javax.servlet.http.HttpServlet", superclass := some genericServlet.name }

/-- What a servlet is given. -/
def requestTypes : List LibraryType :=
  ["Request", "Response"].map fun what =>
    { name := httpServlet.name ++ what, kind := .interface }

end Spring

/-- The class path of the framework. -/
def ClassPath.spring : ClassPath :=
  ⟨Spring.annotationTypes ++
    [Spring.sessionStatus, Spring.repository, Spring.crudRepository, Spring.genericServlet,
      Spring.httpServlet] ++ Spring.requestTypes⟩

end JavaInspect
