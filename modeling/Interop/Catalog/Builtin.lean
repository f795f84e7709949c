import Interop.Catalog.Basic

/-! The declarations that every session starts from: a small part of the `System` types. -/

namespace Interop

def builtinTypes : List TypeDecl :=
  [
    { name := "System.Object"
      methods := [
         { name := "ToString", returns := some "System.String" },
         { name := "GetHashCode", returns := some "System.Int32" },
         { name := "Equals", params := ["System.Object"], returns := some "System.Boolean" }] },
    { name := "System.String"
      fields := [
         { name := "Empty", type := "System.String", isStatic := true }]
      properties := [
         { name := "Length", type := "System.Int32" }]
      methods := [
         { name := "Format", params := ["System.String", "System.Object"],
           returns := some "System.String", isStatic := true },
         { name := "Format", params := ["System.String", "System.Object", "System.Object"],
           returns := some "System.String", isStatic := true },
         { name := "Concat", params := ["System.String", "System.String"],
           returns := some "System.String", isStatic := true },
         { name := "IsNullOrEmpty", params := ["System.String"],
           returns := some "System.Boolean", isStatic := true },
         { name := "ToUpper", returns := some "System.String" },
         { name := "Substring", params := ["System.Int32"], returns := some "System.String" },
         { name := "Substring", params := ["System.Int32", "System.Int32"],
           returns := some "System.String" },
         { name := "IndexOf", params := ["System.Char"], returns := some "System.Int32" }] },
    { name := "System.Math"
      fields := [
         { name := "PI", type := "System.Double", isStatic := true },
         { name := "E", type := "System.Double", isStatic := true }]
      methods := [
         { name := "Abs", params := ["System.Double"], returns := some "System.Double",
           isStatic := true },
         { name := "Sqrt", params := ["System.Double"], returns := some "System.Double",
           isStatic := true },
         { name := "Max", params := ["System.Int32", "System.Int32"],
           returns := some "System.Int32", isStatic := true },
         { name := "Round", params := ["System.Decimal"], returns := some "System.Decimal",
           isStatic := true }] },
    { name := "System.Int32"
      fields := [
         { name := "MaxValue", type := "System.Int32", isStatic := true },
         { name := "MinValue", type := "System.Int32", isStatic := true }]
      methods := [
         { name := "Parse", params := ["System.String"], returns := some "System.Int32",
           isStatic := true },
         { name := "TryParse", params := ["System.String", "System.Int32"],
           returns := some "System.Boolean", isStatic := true }] },
    { name := "System.Char"
      methods := [
         { name := "IsDigit", params := ["System.Char"], returns := some "System.Boolean",
           isStatic := true }] },
    { name := "System.DateTime", kind := .value
      properties := [
         { name := "Now", type := "System.DateTime", isStatic := true },
         { name := "Year", type := "System.Int32" }]
      methods := [
         { name := "AddDays", params := ["System.Double"], returns := some "System.DateTime" }] },
    { name := "System.Console"
      methods := [
         { name := "WriteLine", params := ["System.Object"], isStatic := true }] },
    { name := "System.Environment"
      properties := [
         { name := "NewLine", type := "System.String", isStatic := true },
         { name := "ExitCode", type := "System.Int32", isStatic := true, writable := true }] },
    { name := "System.Array"
      properties := [
         { name := "Length", type := "System.Int32" }]
      methods := [
         { name := "Empty", returns := some "System.Object[]", isStatic := true,
           genericArity := 1 }] },
    { name := "System.Activator"
      methods := [
         { name := "CreateInstance", returns := some "System.Object", isStatic := true,
           genericArity := 1 }] },
    { name := "System.Text.StringBuilder"
      properties := [
         { name := "Length", type := "System.Int32", writable := true },
         { name := "Capacity", type := "System.Int32", writable := true }]
      methods := [
         { name := "Append", params := ["System.String"],
           returns := some "System.Text.StringBuilder" },
         { name := "Clear", returns := some "System.Text.StringBuilder" }] },
    { name := "System.Collections.ArrayList"
      properties := [
         { name := "Count", type := "System.Int32" }]
      methods := [
         { name := "Add", params := ["System.Object"], returns := some "System.Int32" },
         { name := "Clear" }] }
  ]

/-- The catalog of the built-in declarations. They refer only to each other and to the types
that are always known, so loading them does not fail. -/
def Catalog.builtin : Catalog := (Catalog.empty.extend builtinTypes).toOption.getD Catalog.empty

end Interop
