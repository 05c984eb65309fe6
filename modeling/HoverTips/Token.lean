import HoverTips.Glossary.Registry
import HoverTips.Signature
import HoverTips.Span

/-!
# Tokens

A token is a nonempty piece of a block's source with what the hover shows for it. Tokens are built
by `Token.at?` alone, which reads the text from the source, so a token's text is always what its
span selects (`Token.select_span`).
-/

namespace HoverTips

/-- The syntactic class of a token. -/
inductive TokenKind where
  | identifier | keyword | error
  deriving DecidableEq, Repr

def TokenKind.name : TokenKind → String
  | identifier => "identifier"
  | keyword => "keyword"
  | error => "error"

/-- What the hover over a token shows. -/
inductive HoverInfo where
  /-- The definition of a well-known name. -/
  | definition (d : Definition)
  /-- The outline of a type that the block declares. -/
  | signature (s : TypeSignature)
  /-- One line about the declaration the name comes from. -/
  | label (text : String)
  deriving DecidableEq, Repr

namespace HoverInfo

def title : HoverInfo → String
  | definition d => d.typeName
  | signature s => s.header
  | label text => text

def documentation? : HoverInfo → Option String
  | definition d => some d.documentation
  | signature s => some s.fenced
  | label _ => none

def color : HoverInfo → Color
  | definition d => d.color
  | signature _ => Palette.typeSignature.color
  | label _ => Palette.contextual.color

def toJson : HoverInfo → Json
  | definition d => .obj [("kind", .str "definition"), ("type", .str d.typeName),
      ("documentation", .str d.documentation), ("color", d.color.toJson)]
  | signature s => .obj [("kind", .str "type-signature"), ("title", .str s.header),
      ("signature", s.toJson), ("documentation", .str s.fenced),
      ("color", Palette.typeSignature.color.toJson)]
  | label text => .obj [("kind", .str "contextual"), ("label", .str text),
      ("color", Palette.contextual.color.toJson)]

end HoverInfo

def Registry.hover (r : Registry) (name : String) : Option HoverInfo :=
  (r.lookup name).map .definition

/-- A piece of a block's source. -/
structure Token where
  span : Span
  kind : TokenKind
  text : String
  info : Option HoverInfo
  /-- The message of an error token. -/
  message : Option String
  deriving DecidableEq, Repr

namespace Token

/-- The token over a span of the source, if the span selects text. -/
def at? (source : List Char) (span : Span) (kind : TokenKind) : Option Token :=
  (span.select? source).map fun piece =>
    { span, kind, text := String.ofList piece, info := none, message := none }

/-- The error token over a span of the source, if the span selects text. -/
def errorAt? (source : List Char) (span : Span) (message : String) : Option Token :=
  (at? source span .error).map fun t => { t with message := some message }

/-- The text of a token is what its span selects. -/
theorem select_span {source : List Char} {span : Span} {kind : TokenKind} {t : Token}
    (h : at? source span kind = some t) : t.span.select? source = some t.text.toList := by
  obtain ⟨piece, hp, rfl⟩ := Option.map_eq_some_iff.1 h
  simpa using hp

/-- Fills in what the registry knows about a token that has no hover content yet. -/
def hydrate (r : Registry) (t : Token) : Token :=
  match t.info with
  | some _ => t
  | none => { t with info := r.hover t.text }

def toJson (t : Token) : Json :=
  .obj <| [("start", .nat t.span.start), ("end", .nat t.span.stop), ("type", .str t.kind.name),
      ("text", .str t.text)] ++
    Json.member? "info" (t.info.map HoverInfo.toJson) ++
    Json.member? "error" (t.message.map .str)

end Token

end HoverTips
