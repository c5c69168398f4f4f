import Walkthrough.Workflow.Node

/-! Workflows written back as documents. Attributes that are not given are left out; the definition
of an unknown node comes before its id and type. -/
namespace Walkthrough

def FieldAttributes.toEntries (a : FieldAttributes) : Entries Unit :=
  let optional : Entries Unit := if a.optional then [(.text "optional", .bool true)] else []
  let named : Entries Unit := [(.text "options", a.options), (.text "label_expression", a.label),
    (.text "min", a.min), (.text "max", a.max)]
  Entries.merge a.extra (optional ++ named.filter fun entry =>
    match entry.2 with
    | .null => false
    | _ => true)

def Field.toData (f : Field) : Data :=
  .ofEntries [(.text "name", .text f.name), (.text "type", .text f.type),
    (.text "attributes", .ofEntries f.attributes.toEntries)]

mutual

def Node.toData : Node → Data
  | .interaction id prompt fields ended =>
    .ofEntries [(.text "id", .text id), (.text "type", .text "user_interaction"),
      (.text "prompt", prompt), (.text "fields", .ofList (fields.map Field.toData)),
      (.text "ended", .bool ended)]
  | .call id name response ended =>
    .ofEntries [(.text "id", .text id), (.text "type", .text "api_call"), (.text "api_name", name),
      (.text "response_var", response), (.text "ended", .bool ended)]
  | .decision id expression yes no =>
    .ofEntries [(.text "id", .text id), (.text "type", .text "decision"),
      (.text "expression", expression), (.text "if_block", .ofList (Node.toDataAll yes)),
      (.text "else_block", .ofList (Node.toDataAll no))]
  | .whileLoop id expression actions =>
    .ofEntries [(.text "id", .text id), (.text "type", .text "while_loop"),
      (.text "expression", expression), (.text "actions", .ofList (Node.toDataAll actions))]
  | .doWhile id expression actions =>
    .ofEntries [(.text "id", .text id), (.text "type", .text "do_while"),
      (.text "expression", expression), (.text "actions", .ofList (Node.toDataAll actions))]
  | .unknown id type definition =>
    .ofEntries (definition ++ [(.text "id", .text id), (.text "type", .text type)])

def Node.toDataAll : List Node → List Data
  | [] => []
  | n :: rest => n.toData :: Node.toDataAll rest

end

end Walkthrough
