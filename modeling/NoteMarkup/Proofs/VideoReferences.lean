import NoteMarkup.Proofs.LeafStages
import NoteMarkup.Proofs.PathExtension
import NoteMarkup.Stage.Links
import NoteMarkup.Stage.Media

/-! Videos by their addresses. An embedded reference and an image are each told to be a video by a table of
extensions of their own, the first without regard to case. So a path that is a video when it is embedded is
one as an image only if its extension is in lower case and stands in both tables. -/

namespace NoteMarkup

open Text StageM

namespace MediaUrl

variable {s : List Char}

theorem isVideoHere_iff : isVideoHere s = true ↔
    ∃ e ∈ videoExtensions, ∃ rest, s = '.' :: e.toList ++ rest ∧ atTextEnd rest = true := by
  rw [isVideoHere, List.any_eq_true]
  refine exists_congr fun e => and_congr_right fun _ => ?_
  constructor
  · intro ends
    split at ends
    · next rest found => exact ⟨rest, eq_of_afterFront? found, ends⟩
    · cases ends
  · rintro ⟨rest, rfl, ends⟩
    rw [afterFront?_append]
    exact ends

theorem isVideoChars_iff :
    isVideoChars s = true ↔ ∃ front back, s = front ++ back ∧ isVideoHere back = true := by
  induction s with
  | nil =>
      refine iff_of_false Bool.false_ne_true ?_
      rintro ⟨front, back, split, here⟩
      obtain ⟨-, rfl⟩ := List.append_eq_nil_iff.mp split.symm
      cases here
  | cons c s ih =>
      rw [isVideoChars, Bool.or_eq_true, ih]
      constructor
      · rintro (here | ⟨front, back, rfl, here⟩)
        · exact ⟨[], _, rfl, here⟩
        · exact ⟨c :: front, back, rfl, here⟩
      · rintro ⟨front, back, split, here⟩
        cases front with
        | nil => exact .inl (split ▸ here)
        | cons d front => exact .inr ⟨front, back, (List.cons.inj split).2, here⟩

theorem isExtension_of_mem {e : String} (h : e ∈ videoExtensions) :
    Slug.IsExtension ('.' :: e.toList) := by
  have checked : videoExtensions.all (fun e => !e.isEmpty && e.toList.all Char.isAlphanum) = true := by
    decide
  have inside := List.all_eq_true.mp checked e h
  rw [Bool.and_eq_true, List.all_eq_true] at inside
  exact .point (by simpa using inside.1) inside.2

/-- An address is that of a video file if its extension is in the table, as it is written there. -/
theorem isVideo_iff (url : String) :
    isVideo url = true ↔ ∃ e ∈ videoExtensions, Slug.fileExtension? url = some ("." ++ e) := by
  simp only [Slug.fileExtension?_eq_some_iff, Slug.extension?_eq_some_iff, String.toList_append]
  rw [isVideo, isVideoChars_iff]
  constructor
  · rintro ⟨front, back, split, here⟩
    obtain ⟨e, listed, rest, rfl, ends⟩ := isVideoHere_iff.mp here
    exact ⟨e, listed, front, rest, by rw [split, List.append_assoc]; rfl, isExtension_of_mem listed, ends⟩
  · rintro ⟨e, listed, front, rest, split, -, ends⟩
    exact ⟨front, '.' :: e.toList ++ rest, by rw [split, List.append_assoc]; rfl,
      isVideoHere_iff.mpr ⟨e, listed, rest, rfl, ends⟩⟩

end MediaUrl

namespace Stage

/-- What becomes of an image where videos are shown. -/
def Media.screened : Node → Option Node
  | .leaf (.image url alt title) info =>
    some (if MediaUrl.isVideo url then Node.generatedInline (MediaUrl.videoMarkup url)
      else .leaf (.image url alt title) info)
  | n => some n

theorem Media.overrides_visitVideo (o : Options) : visitVideo.Overrides o .image screened := by
  refine .ofLeaf ⟨.image "" "" none, rfl⟩ fun inLink l info => ?_
  cases l with
  | image url alt title =>
      change Steady _ (.ok (some _))
      dsimp only
      split
      · exact .skip (fun r => ⟨(), _, outcome_debug _ _ r⟩) fun _ => .pure _
      · exact .pure _
  | _ => exact .pure _

/-- An embedded path that is its own slug is shown as a video if its extension is one in any case. -/
theorem Links.run_video {path ext : String} (canonical : Slug.ofTarget path = path)
    (found : Slug.fileExtension? path = some ext)
    (video : String.ofList (lower ext.toList) ∈ videoExtensions) (anchor label : Option String)
    (o : Options) (info : Record) :
    (visit.run o (.leaf (.wikiLink ⟨path, anchor, label, true⟩) info)).Steady
      (.ok (some (Node.generatedInline (mediaMarkup "video" path)))) := by
  have noImage : ∀ e ∈ videoExtensions, e ∉ imageExtensions := by decide
  have isVideo : medium path = .video := by
    simp only [medium, found, Option.getD_some]
    rw [if_neg (by simpa using noImage _ video), if_pos (by simpa using video)]
  have trimmed : trimText path = path := by
    have visible : ∀ c ∈ path.toList, isBlank c = false := by
      intro c inside
      rw [← canonical] at inside
      exact (Slug.isPlain_of_mem_page inside).visible
    rw [trimText, trim_eq_self visible, String.ofList_toList]
  have shown : replace ⟨path, anchor, label, true⟩ o =
      pure (Node.generatedInline (mediaMarkup "video" path)) := by
    rw [replace]
    dsimp only
    rw [if_pos rfl, trimmed]
    -- the equation of `embed` takes seconds to generate
    delta embed
    dsimp only
    rw [isVideo, canonical]
  change Steady (some <$> replace ⟨path, anchor, label, true⟩ o) _
  rw [shown]
  exact .map some (.pure _)

/-- The two tables agree on an extension in lower case, except for `.ogv`. -/
theorem isVideo_iff_of_embedded {path ext : String} (found : Slug.fileExtension? path = some ext)
    (video : String.ofList (lower ext.toList) ∈ Links.videoExtensions) :
    MediaUrl.isVideo path = true ↔ String.ofList (lower ext.toList) = ext ∧ ext ≠ ".ogv" := by
  rw [MediaUrl.isVideo_iff, found]
  constructor
  · rintro ⟨e, listed, same⟩
    obtain rfl := Option.some.inj same
    have small : ∀ e ∈ MediaUrl.videoExtensions,
        String.ofList (lower ("." ++ e).toList) = "." ++ e ∧ "." ++ e ≠ ".ogv" := by decide
    exact small e listed
  · rintro ⟨small, other⟩
    rw [small] at video
    have both : ∀ x ∈ Links.videoExtensions, x ≠ ".ogv" →
        ∃ e ∈ MediaUrl.videoExtensions, x = "." ++ e := by decide
    obtain ⟨e, listed, same⟩ := both ext video other
    exact ⟨e, listed, congrArg some same⟩

/-- A path that is shown as a video where a reference embeds it is shown as one where an image names it if
and only if its extension is in lower case and is not `.ogv`; if not, the image stays as it is. -/
theorem video_reference_shown {path ext : String} (canonical : Slug.ofTarget path = path)
    (found : Slug.fileExtension? path = some ext)
    (video : String.ofList (lower ext.toList) ∈ Links.videoExtensions) (anchor label : Option String)
    (alt : String) (title : Option String) (o : Options) (info : Record) :
    (Links.visit.run o (.leaf (.wikiLink ⟨path, anchor, label, true⟩) info)).Steady
        (.ok (some (Node.generatedInline (Links.mediaMarkup "video" path)))) ∧
      (Media.visitVideo.run o (.leaf (.image path alt title) info)).Steady
        (.ok (some (if String.ofList (lower ext.toList) = ext ∧ ext ≠ ".ogv"
          then Node.generatedInline (MediaUrl.videoMarkup path)
          else .leaf (.image path alt title) info))) := by
  refine ⟨Links.run_video canonical found video anchor label o info, ?_⟩
  rw [← if_congr (isVideo_iff_of_embedded found video) rfl rfl]
  exact (Media.overrides_visitVideo o).run ⟨.image "" "" none, rfl⟩ (.leaf (.image path alt title) info)

theorem clip_shown :
    Slug.ofTarget "media/intro.webm" = "media/intro.webm" ∧
      (Links.visit.run .defaults (.leaf (.wikiLink ⟨"media/intro.webm", none, none, true⟩) [])).Steady
        (.ok (some (Node.generatedInline "<video src=\"media/intro.webm\" controls></video>"))) ∧
      (Media.visitVideo.run .defaults (.leaf (.image "media/intro.webm" "clip" none) [])).Steady
        (.ok (some (Node.generatedInline "<video controls src=\"media/intro.webm\"></video>"))) := by
  have canonical : Slug.ofTarget "media/intro.webm" = "media/intro.webm" := by decide
  have found : Slug.fileExtension? "media/intro.webm" = some ".webm" := by decide
  exact ⟨canonical, video_reference_shown canonical found (by decide) none none "clip" none .defaults []⟩

/-- The path is its own slug, has an extension of videos in some case, and is shown as a video where a
reference embeds it, but an image of it stays an image. -/
def ShownEmbeddedOnly (path : String) : Prop :=
  Slug.ofTarget path = path ∧
    (∃ ext, Slug.fileExtension? path = some ext ∧
      String.ofList (lower ext.toList) ∈ Links.videoExtensions) ∧
    (Links.visit.run .defaults (.leaf (.wikiLink ⟨path, none, none, true⟩) [])).Steady
      (.ok (some (Node.generatedInline (Links.mediaMarkup "video" path)))) ∧
    ¬(Media.visitVideo.run .defaults (.leaf (.image path "" none) [])).Steady
      (.ok (some (Node.generatedInline (MediaUrl.videoMarkup path)))) ∧
    (Media.visitVideo.run .defaults (.leaf (.image path "" none) [])).Steady
      (.ok (some (.leaf (.image path "" none) [])))

theorem shownEmbeddedOnly {path ext : String} (canonical : Slug.ofTarget path = path)
    (found : Slug.fileExtension? path = some ext)
    (video : String.ofList (lower ext.toList) ∈ Links.videoExtensions)
    (image : MediaUrl.isVideo path = false) : ShownEmbeddedOnly path := by
  have stays : (Media.visitVideo.run .defaults (.leaf (.image path "" none) [])).Steady
      (.ok (some (.leaf (.image path "" none) []))) := by
    have runs := (Media.overrides_visitVideo .defaults).run ⟨.image "" "" none, rfl⟩
      (.leaf (.image path "" none) [])
    rwa [Node.replaced, Node.swap, if_pos (by rfl), Media.screened, image, if_neg Bool.false_ne_true]
      at runs
  refine ⟨canonical, ⟨ext, found, video⟩, Links.run_video canonical found video none none _ [],
    fun turned => ?_, stays⟩
  cases stays.unique turned

/-- An extension that only the table for embedded references has, and one in upper case. -/
theorem rareClips_kept : ShownEmbeddedOnly "clip.ogv" ∧ ShownEmbeddedOnly "CLIP.MP4" := by
  have newFormat : Slug.fileExtension? "clip.ogv" = some ".ogv" := by decide
  have upperCase : Slug.fileExtension? "CLIP.MP4" = some ".MP4" := by decide
  exact ⟨shownEmbeddedOnly (by decide) newFormat (by decide) (by decide),
    shownEmbeddedOnly (by decide) upperCase (by decide) (by decide)⟩

end Stage

end NoteMarkup
