import HoverTips.Signature

/-! # How an outline reads

The header of an outline is a line of words, and the outline is lines between the
marks of a fenced block. -/

namespace HoverTips.TypeSignature

/-- What the name is declared as. -/
def declarator (s : TypeSignature) : String :=
  match s.kind with
  | .interface => "interface"
  | .classType => "class"
  | .typeAlias => "type"

def nameWithParameters (s : TypeSignature) : String :=
  match s.typeParameters with
  | [] => s.name
  | parameters => s.name ++ "<" ++ ", ".intercalate parameters ++ ">"

/-- Items behind a word, if there are any. -/
def listed (word : String) : List String → List String
  | [] => []
  | items => [word, ", ".intercalate items]

/-- What the header says about the name. -/
def heritage (s : TypeSignature) : List String :=
  match s.aliased with
  | some target => ["=", target]
  | none => listed "extends" s.parents ++ listed "implements" s.interfaces

/-- The words of the header. -/
def words (s : TypeSignature) : List String :=
  s.modifiers ++ s.declarator :: s.nameWithParameters :: s.heritage

/-- The lines of the outline, with one member a line. -/
def lines (s : TypeSignature) : List String :=
  match s.aliased, s.members with
  | some _, _ => [" ".intercalate s.words ++ ";"]
  | none, [] => [" ".intercalate s.words ++ " \x7b\x7d"]
  | none, members =>
    [" ".intercalate s.words ++ " \x7b"] ++ members.map (fun m => "  " ++ m ++ ";") ++ ["\x7d"]

section intercalate

variable {separator : String}

theorem intercalate_cons (s : String) (back : List String) :
    separator.intercalate (s :: back) = s ++ String.join (back.map (separator ++ ·)) := by
  induction back generalizing s with
  | nil => simp
  | cons t back ih =>
    rw [String.intercalate_cons_cons, ih, List.map_cons, String.join_cons]
    simp only [String.append_assoc]

theorem intercalate_append_cons (front : List String) (s : String) (back : List String) :
    separator.intercalate (front ++ s :: back) =
      String.join (front.map (· ++ separator)) ++ separator.intercalate (s :: back) := by
  induction front with
  | nil => simp
  | cons t front ih =>
    have hne : front ++ s :: back ≠ [] := by simp
    rw [List.cons_append, String.intercalate_cons_of_ne_nil hne, ih, List.map_cons,
      String.join_cons]
    simp only [String.append_assoc]

end intercalate

variable (s : TypeSignature)

theorem keyword_eq : s.kind.keyword = s.declarator := by
  rw [declarator]
  cases s.kind <;> rfl

theorem nameWithParameters_eq :
    s.nameWithParameters =
      s.name ++ if s.typeParameters.isEmpty then ""
        else "<" ++ ", ".intercalate s.typeParameters ++ ">" := by
  rw [nameWithParameters]
  cases s.typeParameters <;> simp [String.append_assoc]

theorem clause_eq (word : String) (items : List String) :
    clause (" " ++ word ++ " ") items = String.join ((listed word items).map (" " ++ ·)) := by
  cases items <;> simp [clause, listed, String.append_assoc]

theorem header_heritage :
    s.header = String.join (s.modifiers.map (· ++ " ")) ++ s.kind.keyword ++ " " ++ s.name ++
      (if s.typeParameters.isEmpty then "" else "<" ++ ", ".intercalate s.typeParameters ++ ">") ++
        String.join (s.heritage.map (" " ++ ·)) := by
  rw [header, heritage]
  cases s.aliased with
  | some target =>
    have halias : String.join (["=", target].map (" " ++ ·)) = " = " ++ target := by
      simp [← String.append_assoc]
    rw [halias]
  | none => rw [List.map_append, String.join_append, ← clause_eq, ← clause_eq]; rfl

/-- The header is its words with a space between them. -/
theorem header_eq : s.header = " ".intercalate s.words := by
  rw [words, intercalate_append_cons, String.intercalate_cons_cons, intercalate_cons,
    nameWithParameters_eq, header_heritage, keyword_eq]
  simp only [String.append_assoc]

theorem lines_eq :
    String.join (s.lines.map (· ++ "\n")) = s.header ++ s.body ++ "\n" := by
  have hmark : ";\n" = ";" ++ "\n" := rfl
  have hmembers : s.members.map (fun m => "  " ++ m ++ ";\n") =
      (s.members.map fun m => "  " ++ m ++ ";").map (· ++ "\n") := by
    rw [List.map_map, hmark]
    exact List.map_congr_left fun m _ => String.append_assoc.symm
  rw [lines, body, ← header_eq, hmembers]
  cases s.aliased with
  | some target => simp
  | none =>
    cases s.members with
    | nil => simp
    | cons m members => simp [String.append_assoc]

/-- The outline is its lines between the marks of a block. -/
theorem fenced_eq : s.fenced = "\n".intercalate ("```typescript" :: s.lines ++ ["```"]) := by
  rw [List.cons_append, String.intercalate_cons_of_ne_nil (by simp), intercalate_append_cons,
    lines_eq, String.intercalate_singleton, fenced]
  simp only [String.append_assoc]
  rfl

end HoverTips.TypeSignature
