/-!
The URIs that documents are named by. How a URI is taken apart is not told here: a reader says which
texts are URIs and which spelling of each is the normal one, and documents go by the normal one.
-/

namespace AsmLens

/-- A reader of URIs. -/
structure UriReader where
  /-- The normal spelling of a text, if the text is a URI. -/
  normal? : String → Option String
  /-- A normal spelling is read as itself. -/
  stable : ∀ {spelled normal : String}, normal? spelled = some normal →
    normal? normal = some normal

/-- The reader for editors that send nothing but URIs, and these in their normal spelling. -/
def UriReader.plain : UriReader where
  normal? := some
  stable := fun _ => rfl

end AsmLens
