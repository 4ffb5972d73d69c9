import Mathlib.Data.List.Induction
import NoteMarkup.Context
import NoteMarkup.Proofs.Lines

/-! The address of a tag's page. A relative address is followed from the folder of the page that it stands
on: a point stays there and two points go up, but not above the root of the site. From every page the
address of a tag leads to the page of the tag below the root. -/

namespace NoteMarkup.Slug

open Text

/-- The part of an address that stays in a folder. -/
def stay : List Char := ['.']

/-- The part of an address that leads to the folder above. -/
def up : List Char := ['.', '.']

/-- A part of an address that names a folder or a page. -/
structure IsName (part : List Char) : Prop where
  ne_nil : part ≠ []
  ne_stay : part ≠ stay
  ne_up : part ≠ up

instance (part : List Char) : Decidable (IsName part) :=
  decidable_of_iff (part ≠ [] ∧ part ≠ stay ∧ part ≠ up)
    ⟨fun ⟨nil, stay, up⟩ => ⟨nil, stay, up⟩, fun h => ⟨h.ne_nil, h.ne_stay, h.ne_up⟩⟩

/-- A slug whose parts are all names. -/
def IsPath (slug : String) : Prop := ∀ part ∈ splitAtChar '/' slug.toList, IsName part

instance (slug : String) : Decidable (IsPath slug) :=
  inferInstanceAs (Decidable (∀ part ∈ splitAtChar '/' slug.toList, IsName part))

/-- The folder of a page. -/
def folderOf (page : String) : List (List Char) := (splitAtChar '/' page.toList).dropLast

/-- Where the parts of an address lead from a folder, unless one of them leads above the root. -/
def follow? (folder : List (List Char)) : List (List Char) → Option (List (List Char))
  | [] => some folder
  | part :: parts =>
    if part = stay then follow? folder parts
    else if part = up then if folder = [] then none else follow? folder.dropLast parts
    else follow? (folder ++ [part]) parts

/-- The slug of the page that an address on a page leads to. -/
def target? (page address : String) : Option String :=
  (follow? (folderOf page) (splitAtChar '/' address.toList)).map fun parts =>
    String.ofList (joinWith ['/'] parts)

theorem follow?_names {parts : List (List Char)} (names : ∀ part ∈ parts, IsName part)
    (folder : List (List Char)) : follow? folder parts = some (folder ++ parts) := by
  induction parts generalizing folder with
  | nil => rw [follow?, List.append_nil]
  | cons part parts ih =>
      obtain ⟨first, later⟩ := List.forall_mem_cons.mp names
      rw [follow?, if_neg first.ne_stay, if_neg first.ne_up, ih later, List.append_assoc]
      rfl

/-- As many steps up as a folder is deep lead to the root. -/
theorem follow?_ups (folder rest : List (List Char)) :
    follow? folder (List.replicate folder.length up ++ rest) = follow? [] rest := by
  induction folder using List.reverseRecOn with
  | nil => rfl
  | append_singleton folder last ih =>
      have nested : folder ++ [last] ≠ [] := by simp
      rw [List.length_append, List.length_singleton, List.replicate_succ, List.cons_append, follow?,
        if_neg (by decide), if_pos rfl, if_neg nested, List.dropLast_concat, ih]

/-- The way from a page to the root takes one step up for each folder; a page at the root stays. -/
theorem splitAtChar_toRoot {slug : String} (path : IsPath slug) :
    splitAtChar '/' (toRoot slug).toList =
      if folderOf slug = [] then [stay] else List.replicate (folderOf slug).length up := by
  have kept : (splitAtChar '/' slug.toList).filter (fun part => !part.isEmpty) =
      splitAtChar '/' slug.toList := by
    refine List.filter_eq_self.mpr fun part member => ?_
    simpa using (path part member).ne_nil
  have ups : (splitAtChar '/' slug.toList).dropLast.map (fun _ => "..".toList) =
      List.replicate (folderOf slug).length up := List.map_const' ..
  unfold toRoot
  rw [kept]
  dsimp only
  rw [ups]
  split
  · next root =>
      rw [if_pos (by simpa using root)]
      rfl
  · next nested =>
      rw [if_neg (by simpa using nested), String.toList_ofList, splitAtChar_joinWith (by simpa using nested)]
      intro part member
      rw [List.eq_of_mem_replicate member]
      decide

theorem follow?_toRoot {slug : String} (path : IsPath slug) (rest : List (List Char)) :
    follow? (folderOf slug) (splitAtChar '/' (toRoot slug).toList ++ rest) = follow? [] rest := by
  rw [splitAtChar_toRoot path]
  split
  · next root =>
      rw [root]
      rfl
  · exact follow?_ups _ rest

theorem splitAtChar_tagUrl (c : Context) (tag : String) :
    splitAtChar '/' (c.tagUrl tag).toList =
      splitAtChar '/' (toRoot c.slug).toList ++ "tags".toList :: splitAtChar '/' tag.toList := by
  have address : (c.tagUrl tag).toList =
      (toRoot c.slug).toList ++ '/' :: ("tags".toList ++ '/' :: tag.toList) := by
    simp [Context.tagUrl, Context.baseUrl]
  rw [address, splitAtChar_append, splitAtChar_append]
  rfl

/-- From every page, the address of a tag's page leads to that page, which is below the root of the
site, and it does not lead above the root on its way. -/
theorem tagUrl_leads_to_page (c : Context) (tag : String) (page : IsPath c.slug) (path : IsPath tag) :
    target? c.slug (c.tagUrl tag) = some ("tags/" ++ tag) := by
  have names : ∀ part ∈ "tags".toList :: splitAtChar '/' tag.toList, IsName part :=
    List.forall_mem_cons.mpr ⟨by decide, path⟩
  rw [target?, splitAtChar_tagUrl, follow?_toRoot page, follow?_names names, List.nil_append,
    Option.map_some, joinWith_cons (splitAtChar_ne_nil '/' _), joinWith_splitAtChar]
  congr 1
  apply String.toList_inj.mp
  simp

/-- The tag of a note in two folders, and that of a note at the root. -/
theorem nestedNote_tagged :
    target? "work/2024/plan" "../../tags/project/alpha" = some "tags/project/alpha" ∧
      target? "index" "./tags/draft" = some "tags/draft" :=
  ⟨tagUrl_leads_to_page (.new "work/2024/plan" none) "project/alpha" (by decide) (by decide),
    tagUrl_leads_to_page (.new "index" none) "draft" (by decide) (by decide)⟩

end NoteMarkup.Slug
