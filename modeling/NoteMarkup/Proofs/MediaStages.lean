import NoteMarkup.Proofs.CalloutRerun
import NoteMarkup.Proofs.OwnConstructs
import NoteMarkup.Proofs.ShownMedia

/-! What each stage does to the judgement of a tree. A stage that has run is no longer to come, and the
tree that it gives misses what the tree before it misses. -/

namespace NoteMarkup

open Html Node Stage

/-- The directive in the first line of a text. -/
def Stage.Callouts.lineDirective? (n : Node) : Option Callout.Directive :=
  (text? n).bind fun content => Callout.parse? (splitLine content).1

variable {f : Flag} {p : Options} {inTitle : Bool} {n m : Node}

/-- The stage of a flag is the next one that has to do with the node. -/
structure Fits (f : Flag) (p : Options) (inTitle : Bool) : Prop where
  on : p.enabled f = true
  resolved : f ≠ .wikilinks → p.enabled .wikilinks = false
  before : f = .callouts → ∀ g, Options.isEarly g = true → p.enabled g = false
  after : Options.isEarly f = false → f ≠ .callouts → p.enabled .callouts = false ∧ inTitle = false

theorem Fits.title (h : Fits f p inTitle) (callouts : p.enabled .callouts = true) : Fits f p true where
  on := h.on
  resolved := h.resolved
  before := h.before
  after late other := by rw [(h.after late other).1] at callouts; cases callouts

/-- The second node takes the place of the first when the stage has run. -/
structure Handed (f : Flag) (n m : Node) : Prop where
  place : m.place = n.place
  opens : ∀ p inTitle, Fits f p inTitle → p.enabled .callouts = true →
    Callouts.lineDirective? m = Callouts.lineDirective? n ∧
      Callouts.directive? m = Callouts.directive? n
  misses : ∀ p inTitle, Fits f p inTitle → p.misses inTitle n = (p.set f false).misses inTitle m

theorem Options.enabled_set (p : Options) (f g : Flag) (b : Bool) :
    (p.set f b).enabled g = if g = f then b else p.enabled g := rfl

/-- A stage that is not about something leaves it to the stages that are. -/
theorem Options.guard_set {g : Flag} {x : Bool} (apart : f = g → x = false) :
    (((p.set f false).meets inTitle).enabled g && x) = ((p.meets inTitle).enabled g && x) := by
  by_cases same : f = g
  · rw [apart same, Bool.and_false, Bool.and_false]
  · cases inTitle <;> simp [meets, enabled_set, Ne.symm same]

theorem Options.enabled_meets_of_off {g : Flag} (off : p.enabled g = false) (inTitle : Bool) :
    (p.meets inTitle).enabled g = false := by
  cases inTitle
  · exact off
  · simp [meets, off]

/-- Whether the stage of a flag replaces a node or makes a difference to what it misses. -/
def Flag.alters (f : Flag) (n : Node) : Bool :=
  match f with
  | .wikilinks => n.kind == .wikiLink
  | .highlight => n.kind == .highlight
  | .enableVideoEmbed => Media.isImageOf MediaUrl.isVideo n
  | .callouts => Callouts.opens n
  | .enableYouTubeEmbed => Media.isImageOf (fun url => (MediaUrl.playerEmbed? url).isSome) n
  | .enableTweetEmbed => Media.isImageOf MediaUrl.isStatus n
  | .enableObsidianUri => Media.isAppLinkNode n
  | _ => false

section Apart

variable {l : Leaf} {info : Record}

theorem missesLeaf_apart (resolved : f ≠ .wikilinks → p.enabled .wikilinks = false)
    (apart : f.alters (.leaf l info) = false) :
    (p.meets inTitle).missesLeaf l info = ((p.set f false).meets inTitle).missesLeaf l info := by
  cases l with
  | image url alt title =>
      have video : f = .enableVideoEmbed → MediaUrl.isVideo url = false := by rintro rfl; exact apart
      have player : f = .enableYouTubeEmbed → (MediaUrl.playerEmbed? url).isSome = false := by
        rintro rfl; exact apart
      have status : f = .enableTweetEmbed → MediaUrl.isStatus url = false := by rintro rfl; exact apart
      rw [Options.missesLeaf, Options.missesLeaf, Options.missesImage, Options.missesImage,
        Options.guard_set video, Options.guard_set player, Options.guard_set status]
  | wikiLink r =>
      by_cases resolving : f = .wikilinks
      · subst resolving
        cases apart
      · have off := resolved resolving
        have off' : (p.set f false).enabled .wikilinks = false := by
          rw [Options.enabled_set, if_neg (Ne.symm resolving), off]
        rw [Options.missesLeaf, Options.missesLeaf, Options.enabled_meets_of_off off,
          Options.enabled_meets_of_off off', Bool.false_and, Bool.false_and]
  | _ => simp only [Options.missesLeaf]

theorem missesLink_apart {url : String} {title : Option String} {cs : List Node}
    (apart : f.alters (.branch (.link url title) cs info) = false) :
    (p.meets inTitle).missesLink url title info =
      ((p.set f false).meets inTitle).missesLink url title info := by
  have app : f = .enableObsidianUri → MediaUrl.isAppLink url = false := by rintro rfl; exact apart
  rw [Options.missesLink, Options.missesLink, Options.guard_set app]

end Apart

theorem Node.Renewed.place {R : Node → Node → Prop} (h : Renewed R n m) : m.place = n.place := by
  cases h with
  | branch k => cases k <;> rfl
  | _ => rfl

namespace Handed

variable {cs ds : List Node}

theorem showsAny_eq {here : Place} (h : List.Forall₂ (Handed f) cs ds) (fits : Fits f p inTitle) :
    showsAny p.missing here inTitle cs = showsAny (p.set f false).missing here inTitle ds := by
  induction h with
  | nil => rfl
  | cons first _ ih =>
      have same := first.misses p inTitle fits
      rw [Options.misses, Options.misses] at same
      rw [Node.showsAny, Node.showsAny, ih, same, first.place]

theorem startsCallout_eq (h : List.Forall₂ (Handed f) cs ds) (fits : Fits f p inTitle)
    (callouts : p.enabled .callouts = true) :
    Callouts.startsCallout ds = Callouts.startsCallout cs := by
  cases h with
  | nil => rfl
  | cons first _ => simp only [Callouts.startsCallout, List.head?_cons, Option.bind_some,
      (first.opens p inTitle fits callouts).2]

theorem opens_quote {info : Record} (h : List.Forall₂ (Handed f) cs ds) (fits : Fits f p inTitle)
    (callouts : p.enabled .callouts = true) :
    Callouts.opens (.branch .blockQuote ds info) = Callouts.opens (.branch .blockQuote cs info) := by
  rw [Callouts.opens_branch, Callouts.opens_branch, startsCallout_eq h fits callouts]

/-- The children of a callout, the title first. -/
theorem showsOpening_eq (h : List.Forall₂ (Handed f) cs ds) (fits : Fits f p inTitle)
    (callouts : p.enabled .callouts = true) :
    showsOpening p.missing inTitle cs = showsOpening (p.set f false).missing inTitle ds := by
  cases h with
  | nil => rfl
  | cons first later =>
      have title := first.misses p true (fits.title callouts)
      rw [Options.misses, Options.misses] at title
      rw [Node.showsOpening, Node.showsOpening, showsAny_eq later fits, title]

/-- A node that is not about the stage is handed on with its children. -/
theorem of_renewed (renewed : Renewed (Handed f) n m) (apart : f.alters m = false) : Handed f n m where
  place := renewed.place
  opens p inTitle fits callouts := by
    cases renewed with
    | leaf => exact ⟨rfl, rfl⟩
    | table => exact ⟨rfl, rfl⟩
    | branch k info related =>
        refine ⟨rfl, ?_⟩
        cases k with
        | paragraph =>
            cases related with
            | nil => rfl
            | cons first _ => exact (first.opens p inTitle fits callouts).1
        | _ => rfl
  misses p inTitle fits := by
    rw [Options.misses, Options.misses]
    cases renewed with
    | leaf l info => exact missesLeaf_apart fits.resolved apart
    | table al info header rows =>
        rw [shows_table, shows_table]
        refine showsAny_eq ?_ fits
        cases header with
        | none => exact rows
        | some header => exact .cons header rows
    | @branch k info cs ds related =>
        have content (here : Place) : showsAny p.missing here inTitle cs =
            showsAny (p.set f false).missing here inTitle ds := showsAny_eq related fits
        cases k with
        | link url title =>
            rw [shows, shows, content .flow]
            exact congrArg (· || _) (missesLink_apart apart)
        | highlight =>
            have other : Flag.highlight ≠ f := by
              rintro rfl
              cases apart
            have same : (p.set f false).missing.hides = p.missing.hides := if_neg other
            rw [shows, shows, content .flow, same]
        | blockQuote =>
            rw [shows, shows]
            cases callouts : p.enabled .callouts with
            | false =>
                have off : (p.set f false).missing.titles = false := by
                  change (p.set f false).enabled .callouts = false
                  rw [Options.enabled_set, callouts, ite_self]
                have off' : p.missing.titles = false := callouts
                rw [off, off']
                exact content .flow
            | true =>
                have same : Callouts.opens (.branch .blockQuote ds info) =
                    Callouts.opens (.branch .blockQuote cs info) := opens_quote related fits callouts
                rw [same]
                cases opened : Callouts.opens (.branch .blockQuote cs info) with
                | false => simpa using content .flow
                | true =>
                    have other : Flag.callouts ≠ f := by
                      rintro rfl
                      rw [Flag.alters, same, opened] at apart
                      cases apart
                    have on : p.missing.titles = true := callouts
                    have on' : (p.set f false).missing.titles = true := by
                      change (p.set f false).enabled .callouts = true
                      rw [Options.enabled_set, if_neg other, callouts]
                    rw [on, on']
                    exact showsOpening_eq related fits callouts
        | tableRow => exact content .cell
        | _ => exact content .flow

end Handed

end NoteMarkup
