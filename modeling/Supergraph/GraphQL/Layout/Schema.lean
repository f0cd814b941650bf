import Supergraph.GraphQL.BuiltIn
import Supergraph.GraphQL.Layout.Value

namespace Supergraph.GraphQL

def renderDescription (level : Nat) : Option String → String
  | none => ""
  | some s => renderText level s ++ newline level

def renderBlock (items : List String) : String :=
  if items.isEmpty then "" else " \x7b" ++ String.join (items.map (newline 1 ++ ·)) ++ "\n\x7d"

def renderSequence (opening separator : String) (items : List String) : String :=
  if items.isEmpty then "" else opening ++ separator.intercalate items

namespace InputValueDef

def isPlain (d : InputValueDef) : Bool := d.description.isNone && d.directives.isEmpty

def renderInline (name : Name) (d : InputValueDef) : String :=
  name.text ++ ": " ++ d.type.render
    ++ (match d.defaultValue with
      | some v => " = " ++ v.renderInline
      | none => "")

def render (level : Nat) (name : Name) (d : InputValueDef) : String :=
  renderDescription level d.description ++ name.text ++ ": " ++ d.type.render
    ++ (match d.defaultValue with
      | some v => " = " ++ v.render level
      | none => "")
    ++ Directive.renderAll d.directives

def renderArguments (level : Nat) (arguments : List (Name × InputValueDef)) : String :=
  if arguments.isEmpty then ""
  else if arguments.all fun (_, d) => d.isPlain then
    "(" ++ ", ".intercalate (arguments.map fun (n, d) => d.renderInline n) ++ ")"
  else
    let line := fun (n, d) => newline (level + 1) ++ InputValueDef.render (level + 1) n d ++ ","
    "(" ++ String.join (arguments.map line) ++ newline level ++ ")"

end InputValueDef

def FieldDef.render (level : Nat) (name : Name) (d : FieldDef) : String :=
  renderDescription level d.description ++ name.text
    ++ InputValueDef.renderArguments level d.arguments ++ ": " ++ d.type.render
    ++ Directive.renderAll d.directives

def EnumValueDef.render (level : Nat) (name : Name) (d : EnumValueDef) : String :=
  renderDescription level d.description ++ name.text ++ Directive.renderAll d.directives

def DirectiveDef.render (name : Name) (d : DirectiveDef) : String :=
  renderDescription 0 d.description ++ "directive @" ++ name.text
    ++ InputValueDef.renderArguments 0 d.arguments ++ (if d.repeatable then " repeatable" else "")
    ++ renderSequence " on " " | " (d.locations.map (·.name.text))

def TypeKind.keyword : TypeKind → String
  | .object => "type"
  | .interface => "interface"
  | .union => "union"
  | .enum => "enum"
  | .inputObject => "input"
  | .scalar => "scalar"

namespace TypeBody

def renderInterfaces : TypeBody → String
  | .object body => renderSequence " implements " " & " (body.interfaces.toList.map (·.text))
  | .interface body => renderSequence " implements " " & " (body.interfaces.toList.map (·.text))
  | _ => ""

def renderMembers : TypeBody → String
  | .object body => renderBlock (body.fields.toList.map fun (n, d) => d.render 1 n)
  | .interface body => renderBlock (body.fields.toList.map fun (n, d) => d.render 1 n)
  | .union members => renderSequence " = " " | " (members.toList.map (·.text))
  | .enum values => renderBlock (values.toList.map fun (n, d) => d.render 1 n)
  | .inputObject fields => renderBlock (fields.toList.map fun (n, d) => d.render 1 n)
  | .scalar => ""

end TypeBody

def TypeDef.render (name : Name) (d : TypeDef) : String :=
  renderDescription 0 d.description ++ d.kind.keyword ++ " " ++ name.text ++ d.body.renderInterfaces
    ++ Directive.renderAll d.directives ++ d.body.renderMembers

namespace Schema

def renderDefinition? (s : Schema) : Option String :=
  let roots := Operation.all.filterMap fun operation =>
    (s.roots operation).map fun type => operation.keyword ++ ": " ++ type.text
  if roots.isEmpty then none
  else some (renderDescription 0 s.description ++ "schema" ++ Directive.renderAll s.directives
    ++ renderBlock roots)

def renderDefinitions (s : Schema) : List String :=
  s.renderDefinition?.toList
    ++ (s.directiveDefs.toList.filter (!isBuiltInDirective ·.1)).map (fun (n, d) => d.render n)
    ++ (s.types.toList.filter (!isBuiltInType ·.1)).map fun (n, d) => d.render n

def render (s : Schema) : String := "\n\n".intercalate s.renderDefinitions ++ "\n"

end Schema

end Supergraph.GraphQL
