import LiveForm.Assoc

/-!
Messages by key, for the few texts a form shows on its own. A key without a message stands for
itself.
-/

set_option autoImplicit false

namespace LiveForm

structure Catalog where
  messages : List (String × String)
  deriving DecidableEq, Repr, Inhabited

/-- The keys of the texts that forms show. -/
inductive MessageKey where
  | submitInProgress
  | submitError
  | loadError
  | save
  deriving DecidableEq, Repr

def MessageKey.text : MessageKey → String
  | .submitInProgress => "form.submit.inProgress"
  | .submitError => "form.submit.error"
  | .loadError => "form.load.error"
  | .save => "global.save"

namespace Catalog

def empty : Catalog := ⟨[]⟩

def add (c : Catalog) (key message : String) : Catalog := ⟨Assoc.insert key message c.messages⟩

def ofPairs (pairs : List (String × String)) : Catalog := ⟨Assoc.ofPairs pairs⟩

def translate (c : Catalog) (key : String) : String := (Assoc.find? key c.messages).getD key

def message (c : Catalog) (key : MessageKey) : String := c.translate key.text

def english : Catalog :=
  ofPairs [
    (MessageKey.submitInProgress.text, "Changes are being saved. Leaving now may lose them."),
    (MessageKey.submitError.text, "Failed to save changes"),
    (MessageKey.loadError.text, "Failed to load form values"),
    (MessageKey.save.text, "Save")]

def french : Catalog :=
  ofPairs [
    (MessageKey.submitInProgress.text,
      "Enregistrement en cours. Quitter maintenant peut entraîner une perte de données."),
    (MessageKey.submitError.text, "Échec de l'enregistrement des modifications"),
    (MessageKey.loadError.text, "Échec du chargement des valeurs du formulaire"),
    (MessageKey.save.text, "Enregistrer")]

/-- The language of a locale tag: what stands before its first `-` or `_`. -/
def language (tag : String) : List Char := tag.toList.takeWhile fun c => c ≠ '-' && c ≠ '_'

/-- French for French locales, English for all others. -/
def forLocale (tag : String) : Catalog := if language tag = ['f', 'r'] then french else english

end Catalog

end LiveForm
