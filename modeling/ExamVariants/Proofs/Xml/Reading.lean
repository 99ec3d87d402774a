import ExamVariants.Proofs.Xml.Element

/-!
A reader of XML documents, which goes through the text character by character and keeps the elements
that are open. It takes no comments, sections of raw text or empty-element tags and refuses what
does not nest. A written element reads back as itself: the texts are decoded, and the line ends and
blanks around the tags are no part of it.
-/

namespace ExamVariants.Xml

/-- Replaces the five named entities by their characters, and refuses any other `&`. -/
def unescape : List Char → Option (List Char)
  | [] => some []
  | '&' :: 'l' :: 't' :: ';' :: cs => (unescape cs).map ('<' :: ·)
  | '&' :: 'g' :: 't' :: ';' :: cs => (unescape cs).map ('>' :: ·)
  | '&' :: 'a' :: 'm' :: 'p' :: ';' :: cs => (unescape cs).map ('&' :: ·)
  | '&' :: 'a' :: 'p' :: 'o' :: 's' :: ';' :: cs => (unescape cs).map ('\'' :: ·)
  | '&' :: 'q' :: 'u' :: 'o' :: 't' :: ';' :: cs => (unescape cs).map ('"' :: ·)
  | c :: cs => if c = '&' then none else (unescape cs).map (c :: ·)

def isSpace (c : Char) : Bool := c = ' ' || c = '\t' || c = '\n' || c = '\r'

def isNameChar (c : Char) : Bool := c.isAlphanum || c = '_' || c = '-' || c = '.' || c = ':'

def IsName (s : String) : Prop := s.toList ≠ [] ∧ s.toList.all isNameChar = true

instance (s : String) : Decidable (IsName s) := inferInstanceAs (Decidable (_ ∧ _))

theorem IsName.isNameChar_of_mem {s : String} (h : IsName s) {c : Char} (hc : c ∈ s.toList) :
    isNameChar c = true :=
  List.all_eq_true.mp h.2 c hc

theorem Element.isSpace_of_mem_indent {depth : Nat} {c : Char} (h : c ∈ indent depth) :
    isSpace c = true := by
  rcases List.mem_cons.mp h with rfl | h
  · rfl
  · obtain rfl := List.eq_of_mem_replicate h
    rfl

/-- An element that is open: its text so far, and its children so far from the latest. -/
structure Frame where
  name : String
  attributes : List (String × String)
  text : List Char
  children : List Element

namespace Frame

/-- What stands around the root element. -/
def outermost : Frame := ⟨"", [], [], []⟩

def addText (f : Frame) (text : List Char) : Frame := { f with text := f.text ++ text }

def addChild (f : Frame) (e : Element) : Frame := { f with children := e :: f.children }

/-- The element of a frame. An element with children holds no text but blanks. -/
def close? (f : Frame) : Option Element :=
  if f.children.isEmpty then some (.leaf f.name f.attributes (String.ofList f.text))
  else if f.text.all isSpace then some (.node f.name f.attributes f.children.reverse)
  else none

end Frame

namespace Frame

/-- The frame behind an element that stands at a depth: the layout before the element counts as text
around it. -/
def behindElement (f : Frame) (depth : Nat) (e : Element) : Frame :=
  (f.addText (Element.indent depth)).addChild e

def behindElements (f : Frame) (depth : Nat) (es : List Element) : Frame :=
  es.foldl (fun f e => f.behindElement depth e) f

theorem behindElements_eq (f : Frame) (depth : Nat) (es : List Element) :
    ∃ layout : List Char, layout.all isSpace ∧ f.behindElements depth es =
      ⟨f.name, f.attributes, f.text ++ layout, es.reverse ++ f.children⟩ := by
  induction es generalizing f with
  | nil => exact ⟨[], rfl, by simp [behindElements]⟩
  | cons e es ih =>
    obtain ⟨layout, hlayout, heq⟩ := ih (f.behindElement depth e)
    refine ⟨Element.indent depth ++ layout, ?_, ?_⟩
    · rw [List.all_append, hlayout, Bool.and_true, List.all_eq_true]
      exact fun c hc => Element.isSpace_of_mem_indent hc
    · rw [behindElements, List.foldl_cons]
      refine heq.trans ?_
      simp [behindElement, addText, addChild]

end Frame

/-- What the character to come belongs to. Names, keys, values and data are kept from their latest
character, and attributes from the latest. -/
inductive Place where
  | data (text : List Char)
  | tag
  | name (name : List Char)
  | attributes (name : String) (attributes : List (String × String))
  | key (name : String) (attributes : List (String × String)) (key : List Char)
  | quote (name : String) (attributes : List (String × String)) (key : String)
  | value (name : String) (attributes : List (String × String)) (key : String) (value : List Char)
  | behindValue (name : String) (attributes : List (String × String))
  | stopName (name : List Char)

/-- The place in the text, and the open elements from the innermost. -/
structure Reader where
  place : Place
  frames : List Frame

def ofLatest (cs : List Char) : String := String.ofList cs.reverse

namespace Reader

/-- Gives the character data before a tag to the innermost element. -/
def endData (text : List Char) : List Frame → Option (List Frame)
  | [] => none
  | f :: fs => (unescape text.reverse).map fun cs => f.addText cs :: fs

def openElement (name : String) (attributes : List (String × String)) (fs : List Frame) : Reader :=
  ⟨.data [], ⟨name, attributes.reverse, [], []⟩ :: fs⟩

/-- Closes the innermost element, which must have the name and lie within another frame. -/
def closeElement (name : String) : List Frame → Option Reader
  | f :: g :: fs =>
    if f.name = name then f.close?.map fun e => ⟨.data [], g.addChild e :: fs⟩ else none
  | _ => none

/-- Behind a name or a value the start tag ends, or a blank comes before the next attribute. -/
def behind (name : String) (attributes : List (String × String)) (fs : List Frame) (c : Char) :
    Option Reader :=
  if c = '>' then some (openElement name attributes fs)
  else if isSpace c then some ⟨.attributes name attributes, fs⟩
  else none

def step (r : Reader) (c : Char) : Option Reader :=
  match r.place with
  | .data text =>
    if c = '<' then (endData text r.frames).map fun fs => ⟨.tag, fs⟩
    else some ⟨.data (c :: text), r.frames⟩
  | .tag =>
    if c = '/' then some ⟨.stopName [], r.frames⟩
    else if isNameChar c then some ⟨.name [c], r.frames⟩
    else none
  | .name name =>
    if isNameChar c then some ⟨.name (c :: name), r.frames⟩
    else behind (ofLatest name) [] r.frames c
  | .attributes name attributes =>
    if isNameChar c then some ⟨.key name attributes [c], r.frames⟩
    else if c = '>' then some (openElement name attributes r.frames)
    else if isSpace c then some r
    else none
  | .key name attributes key =>
    if isNameChar c then some ⟨.key name attributes (c :: key), r.frames⟩
    else if c = '=' then some ⟨.quote name attributes (ofLatest key), r.frames⟩
    else none
  | .quote name attributes key =>
    if c = '"' then some ⟨.value name attributes key [], r.frames⟩ else none
  | .value name attributes key value =>
    if c = '"' then
      (unescape value.reverse).map fun cs =>
        ⟨.behindValue name ((key, String.ofList cs) :: attributes), r.frames⟩
    else if c = '<' then none
    else some ⟨.value name attributes key (c :: value), r.frames⟩
  | .behindValue name attributes => behind name attributes r.frames c
  | .stopName name =>
    if isNameChar c then some ⟨.stopName (c :: name), r.frames⟩
    else if c = '>' then closeElement (ofLatest name) r.frames
    else none

def run (r : Reader) (cs : List Char) : Option Reader := cs.foldlM step r

/-- The root element, once it is closed; only blanks may stand around it. -/
def root? (r : Reader) : Option Element :=
  match r with
  | ⟨.data text, [⟨_, _, before, [root]⟩]⟩ =>
    if before.all isSpace && text.all isSpace then some root else none
  | _ => none

end Reader

def parseChars (cs : List Char) : Option Element := do
  let body ← cs.dropPrefix? declaration.toList
  let r ← Reader.run ⟨.data [], [.outermost]⟩ body
  r.root?

def parse (s : String) : Option Element := parseChars s.toList

theorem unescape_cons {c : Char} (h : c ≠ '&') (cs : List Char) :
    unescape (c :: cs) = (unescape cs).map (c :: ·) := by
  rw [unescape, if_neg h] <;> simp [h]

theorem escapeChar_eq_or (c : Char) :
    (c = '<' ∧ escapeChar c = "&lt;".toList) ∨ (c = '>' ∧ escapeChar c = "&gt;".toList) ∨
      (c = '&' ∧ escapeChar c = "&amp;".toList) ∨ (c = '\'' ∧ escapeChar c = "&apos;".toList) ∨
      (c = '"' ∧ escapeChar c = "&quot;".toList) ∨
      (c ≠ '<' ∧ c ≠ '>' ∧ c ≠ '&' ∧ c ≠ '\'' ∧ c ≠ '"' ∧ escapeChar c = [c]) := by
  unfold escapeChar
  split <;> simp_all

theorem unescape_escaped (cs : List Char) : unescape (cs.flatMap escapeChar) = some cs := by
  induction cs with
  | nil => rfl
  | cons c cs ih =>
    rw [List.flatMap_cons]
    rcases escapeChar_eq_or c with ⟨rfl, h⟩ | ⟨rfl, h⟩ | ⟨rfl, h⟩ | ⟨rfl, h⟩ | ⟨rfl, h⟩ |
      ⟨-, -, hamp, -, -, h⟩
    · simp [h, unescape, ih]
    · simp [h, unescape, ih]
    · simp [h, unescape, ih]
    · simp [h, unescape, ih]
    · simp [h, unescape, ih]
    · rw [h, List.singleton_append, unescape_cons hamp, ih, Option.map_some]

theorem notMem_escaped {c : Char} (hc : c = '<' ∨ c = '"') (cs : List Char) :
    c ∉ cs.flatMap escapeChar := by
  intro hmem
  obtain ⟨d, -, hd⟩ := List.mem_flatMap.mp hmem
  rcases escapeChar_eq_or d with ⟨-, h⟩ | ⟨-, h⟩ | ⟨-, h⟩ | ⟨-, h⟩ | ⟨-, h⟩ |
    ⟨hlt, -, -, -, hquote, h⟩ <;> rw [h] at hd
  · rcases hc with rfl | rfl <;> exact absurd hd (by decide)
  · rcases hc with rfl | rfl <;> exact absurd hd (by decide)
  · rcases hc with rfl | rfl <;> exact absurd hd (by decide)
  · rcases hc with rfl | rfl <;> exact absurd hd (by decide)
  · rcases hc with rfl | rfl <;> exact absurd hd (by decide)
  · obtain rfl := List.mem_singleton.mp hd
    rcases hc with rfl | rfl
    · exact hlt rfl
    · exact hquote rfl

theorem unescape_of_notMem {cs : List Char} (h : '&' ∉ cs) : unescape cs = some cs := by
  induction cs with
  | nil => rfl
  | cons c cs ih =>
    rw [List.mem_cons, not_or] at h
    rw [unescape_cons (Ne.symm h.1), ih h.2, Option.map_some]

namespace Element

theorem lt_notMem_indent (depth : Nat) : '<' ∉ indent depth := fun h =>
  absurd (isSpace_of_mem_indent h) (by decide)

theorem unescape_indent (depth : Nat) : unescape (indent depth) = some (indent depth) :=
  unescape_of_notMem fun h => absurd (isSpace_of_mem_indent h) (by decide)

end Element

def isPrintable (c : Char) : Bool := ' ' ≤ c && c ≤ '~'

structure TagFits (name : String) (attributes : List (String × String)) : Prop where
  name : IsName name
  keys : ∀ a ∈ attributes, IsName a.1
  values : ∀ a ∈ attributes, a.2.toList.all isPrintable = true

/-- All tags fit, and an element without a text has children. -/
inductive Element.WellFormed : Element → Prop
  | leaf {name : String} {attributes : List (String × String)} (text : String)
    (htag : TagFits name attributes) : WellFormed (.leaf name attributes text)
  | node {name : String} {attributes : List (String × String)} {children : List Element}
    (htag : TagFits name attributes) (hne : children ≠ [])
    (hchildren : ∀ e ∈ children, e.WellFormed) : WellFormed (.node name attributes children)

namespace Reader

variable {frames : List Frame}

theorem run_cons (r : Reader) (c : Char) (cs : List Char) :
    r.run (c :: cs) = r.step c >>= fun r' => r'.run cs := rfl

theorem run_cons_of_step {r r' : Reader} {c : Char} (h : r.step c = some r') (cs : List Char) :
    r.run (c :: cs) = r'.run cs := by
  rw [run_cons, h]
  rfl

/-- A place that keeps the characters of a kind keeps all of a run of them. -/
theorem run_kept {place : List Char → Place} {kind : Char → Prop}
    (hstep : ∀ kept c, kind c → step ⟨place kept, frames⟩ c = some ⟨place (c :: kept), frames⟩)
    {cs : List Char} (h : ∀ c ∈ cs, kind c) (kept rest : List Char) :
    run ⟨place kept, frames⟩ (cs ++ rest) = run ⟨place (cs.reverse ++ kept), frames⟩ rest := by
  induction cs generalizing kept with
  | nil => rfl
  | cons c cs ih =>
    rw [List.cons_append, run_cons_of_step (hstep kept c (h c List.mem_cons_self)),
      ih fun d hd => h d (List.mem_cons_of_mem c hd), List.reverse_cons, List.append_assoc,
      List.singleton_append]

theorem run_data {cs decoded : List Char} (h : '<' ∉ cs) (hdecoded : unescape cs = some decoded)
    (f : Frame) (fs : List Frame) (rest : List Char) :
    run ⟨.data [], f :: fs⟩ (cs ++ '<' :: rest) = run ⟨.tag, f.addText decoded :: fs⟩ rest := by
  have hkept (kept : List Char) (c : Char) (hc : c ≠ '<') :
      step ⟨.data kept, f :: fs⟩ c = some ⟨.data (c :: kept), f :: fs⟩ := if_neg hc
  have htag : step ⟨.data (cs.reverse ++ []), f :: fs⟩ '<' =
      some ⟨.tag, f.addText decoded :: fs⟩ := by
    simp [step, endData, hdecoded]
  rw [run_kept hkept fun c hc => by rintro rfl; exact h hc, run_cons_of_step htag]

theorem run_attribute {key value : String} (hkey : IsName key) (name : String)
    (done : List (String × String)) (rest : List Char) :
    run ⟨.behindValue name done, frames⟩ ((attributeText (key, value)).toList ++ rest) =
      run ⟨.behindValue name ((key, value) :: done), frames⟩ rest := by
  obtain ⟨k, ks, hks⟩ := List.exists_cons_of_ne_nil hkey.1
  have hk : isNameChar k = true := hkey.isNameChar_of_mem (by simp [hks])
  have hchars : (attributeText (key, value)).toList ++ rest =
      ' ' :: k :: (ks ++ '=' :: '"' :: (value.toList.flatMap escapeChar ++ '"' :: rest)) := by
    simp [attributeText, escape, hks]
  -- The places that the reader passes: blank, key, equals sign, quote, value, quote.
  have hblank : step ⟨.behindValue name done, frames⟩ ' ' = some ⟨.attributes name done, frames⟩ :=
    rfl
  have hfirst : step ⟨.attributes name done, frames⟩ k = some ⟨.key name done [k], frames⟩ :=
    if_pos hk
  have hkept (kept : List Char) (c : Char) (hc : isNameChar c = true) :
      step ⟨.key name done kept, frames⟩ c = some ⟨.key name done (c :: kept), frames⟩ := if_pos hc
  have hequals : step ⟨.key name done (ks.reverse ++ [k]), frames⟩ '=' =
      some ⟨.quote name done key, frames⟩ := by
    have hlatest : ofLatest (ks.reverse ++ [k]) = key := by simp [ofLatest, ← hks]
    rw [← hlatest]
    rfl
  have hquote : step ⟨.quote name done key, frames⟩ '"' = some ⟨.value name done key [], frames⟩ :=
    rfl
  have hvalue (kept : List Char) (c : Char) (hc : c ≠ '"' ∧ c ≠ '<') :
      step ⟨.value name done key kept, frames⟩ c =
        some ⟨.value name done key (c :: kept), frames⟩ := by
    simp [step, hc]
  have hend : step ⟨.value name done key ((value.toList.flatMap escapeChar).reverse ++ []), frames⟩
      '"' = some ⟨.behindValue name ((key, value) :: done), frames⟩ := by
    simp [step, unescape_escaped]
  have hsafe : ∀ c ∈ value.toList.flatMap escapeChar, c ≠ '"' ∧ c ≠ '<' := by
    intro c hc
    constructor <;> rintro rfl
    · exact notMem_escaped (Or.inr rfl) _ hc
    · exact notMem_escaped (Or.inl rfl) _ hc
  rw [hchars, run_cons_of_step hblank, run_cons_of_step hfirst,
    run_kept hkept fun c hc => hkey.isNameChar_of_mem (by simp [hks, hc]), run_cons_of_step hequals,
    run_cons_of_step hquote, run_kept hvalue hsafe, run_cons_of_step hend]

theorem run_attributes {attributes : List (String × String)} (h : ∀ a ∈ attributes, IsName a.1)
    (name : String) (done : List (String × String)) (rest : List Char) :
    run ⟨.behindValue name done, frames⟩
        (attributes.flatMap (fun a => (attributeText a).toList) ++ '>' :: rest) =
      run (openElement name (attributes.reverse ++ done) frames) rest := by
  induction attributes generalizing done with
  | nil => rfl
  | cons a attributes ih =>
    rw [List.flatMap_cons, List.append_assoc, run_attribute (h a List.mem_cons_self),
      ih fun a' ha' => h a' (List.mem_cons_of_mem a ha'), List.reverse_cons, List.append_assoc,
      List.singleton_append]

theorem run_name_end {c : Char} (hc : isNameChar c = false) (name cs : List Char) :
    run ⟨.name name, frames⟩ (c :: cs) =
      run ⟨.behindValue (ofLatest name) [], frames⟩ (c :: cs) := by
  have hstep : step ⟨.name name, frames⟩ c = step ⟨.behindValue (ofLatest name) [], frames⟩ c := by
    simp [step, hc]
  rw [run_cons, run_cons, hstep]

theorem run_startTag {name : String} {attributes : List (String × String)} (hname : IsName name)
    (hkeys : ∀ a ∈ attributes, IsName a.1) (depth : Nat) (f : Frame) (fs : List Frame)
    (rest : List Char) :
    run ⟨.data [], f :: fs⟩ (Element.indent depth ++ (Element.startTag name attributes ++ rest)) =
      run ⟨.data [], ⟨name, attributes, [], []⟩ :: f.addText (Element.indent depth) :: fs⟩ rest := by
  obtain ⟨n, ns, hns⟩ := List.exists_cons_of_ne_nil hname.1
  have hn : isNameChar n = true := hname.isNameChar_of_mem (by simp [hns])
  have hslash : n ≠ '/' := by
    rintro rfl
    exact absurd hn (by decide)
  have hfirst (fs : List Frame) : step ⟨.tag, fs⟩ n = some ⟨.name [n], fs⟩ := by
    simp [step, hslash, hn]
  have hkept (fs : List Frame) (kept : List Char) (c : Char) (hc : isNameChar c = true) :
      step ⟨.name kept, fs⟩ c = some ⟨.name (c :: kept), fs⟩ := if_pos hc
  have hlatest : ofLatest (ns.reverse ++ [n]) = name := by simp [ofLatest, ← hns]
  have htail : ∃ c cs, attributes.flatMap (fun a => (attributeText a).toList) ++ '>' :: rest =
      c :: cs ∧ isNameChar c = false := by
    cases attributes with
    | nil => exact ⟨'>', rest, rfl, by decide⟩
    | cons a attributes => exact ⟨' ', _, by simp [attributeText]; rfl, by decide⟩
  obtain ⟨c, cs, htail, hc⟩ := htail
  have hchars : Element.startTag name attributes ++ rest = '<' :: n :: (ns ++ (attributes.flatMap
      (fun a => (attributeText a).toList) ++ '>' :: rest)) := by
    simp [Element.startTag, hns]
  rw [hchars, run_data (Element.lt_notMem_indent depth) (Element.unescape_indent depth),
    run_cons_of_step (hfirst _), run_kept (hkept _) fun d hd => hname.isNameChar_of_mem (by simp [hns, hd]),
    htail, run_name_end hc, hlatest, ← htail, run_attributes hkeys, List.append_nil, openElement,
    List.reverse_reverse]

theorem run_stopTag {g f : Frame} {e : Element} (hname : IsName g.name) {cs decoded : List Char}
    (hcs : '<' ∉ cs) (hdecoded : unescape cs = some decoded)
    (hclose : (g.addText decoded).close? = some e) (fs : List Frame) (rest : List Char) :
    run ⟨.data [], g :: f :: fs⟩ (cs ++ (Element.stopTag g.name ++ rest)) =
      run ⟨.data [], f.addChild e :: fs⟩ rest := by
  have hslash (fs : List Frame) : step ⟨.tag, fs⟩ '/' = some ⟨.stopName [], fs⟩ := rfl
  have hkept (fs : List Frame) (kept : List Char) (c : Char) (hc : isNameChar c = true) :
      step ⟨.stopName kept, fs⟩ c = some ⟨.stopName (c :: kept), fs⟩ := if_pos hc
  have hend : step ⟨.stopName (g.name.toList.reverse ++ []), g.addText decoded :: f :: fs⟩ '>' =
      some ⟨.data [], f.addChild e :: fs⟩ := by
    have hlatest : ofLatest (g.name.toList.reverse ++ []) = (g.addText decoded).name := by
      simp [ofLatest, Frame.addText]
    change closeElement (ofLatest _) (g.addText decoded :: f :: fs) = _
    rw [hlatest, closeElement, if_pos rfl, hclose, Option.map_some]
  have hchars : Element.stopTag g.name ++ rest = '<' :: '/' :: (g.name.toList ++ '>' :: rest) := by
    simp [Element.stopTag]
  rw [hchars, run_data hcs hdecoded, run_cons_of_step (hslash _),
    run_kept (hkept _) fun _ hc => hname.isNameChar_of_mem hc, run_cons_of_step hend]

theorem run_element {e : Element} (h : e.WellFormed) (depth : Nat) (f : Frame) (fs : List Frame)
    (rest : List Char) :
    run ⟨.data [], f :: fs⟩ (e.chars depth ++ rest) =
      run ⟨.data [], f.behindElement depth e :: fs⟩ rest := by
  induction h generalizing depth f fs rest with
  | leaf text htag =>
    rename_i name attributes
    have hclose : (Frame.addText ⟨name, attributes, [], []⟩ text.toList).close? =
        some (.leaf name attributes text) := by
      simp [Frame.addText, Frame.close?]
    rw [Element.chars, List.append_assoc, List.append_assoc, run_startTag htag.name htag.keys,
      List.append_assoc, run_stopTag htag.name (notMem_escaped (Or.inl rfl) _) (unescape_escaped _)
        hclose]
    rfl
  | node htag hne hchildren ih =>
    rename_i name attributes children
    have hrun (g : Frame) (gs : List Frame) (rest : List Char) :
        run ⟨.data [], g :: gs⟩ (Element.charsOf (depth + 1) children ++ rest) =
          run ⟨.data [], g.behindElements (depth + 1) children :: gs⟩ rest := by
      -- The children are read one after the other, each into the frame that the last one left.
      clear hne hchildren
      induction children generalizing g with
      | nil => rfl
      | cons e es ihes =>
        rw [Element.charsOf, List.append_assoc, ih e List.mem_cons_self,
          ihes fun e' he' => ih e' (List.mem_cons_of_mem e he')]
        rfl
    obtain ⟨layout, hlayout, hframe⟩ :=
      Frame.behindElements_eq ⟨name, attributes, [], []⟩ (depth + 1) children
    have hindent : (Element.indent depth).all isSpace = true :=
      List.all_eq_true.mpr fun c hc => Element.isSpace_of_mem_indent hc
    have hclose : (Frame.addText ⟨name, attributes, [] ++ layout, children.reverse ++ []⟩
        (Element.indent depth)).close? = some (.node name attributes children) := by
      simp [Frame.addText, Frame.close?, hne, List.all_append, hlayout, hindent]
    rw [Element.chars, List.append_assoc, List.append_assoc, run_startTag htag.name htag.keys,
      List.append_assoc, hrun, hframe, List.append_assoc,
      run_stopTag htag.name (Element.lt_notMem_indent depth) (Element.unescape_indent depth) hclose]
    rfl

end Reader

/-- A document of an element reads back as the element. -/
theorem parse_document {e : Element} (h : e.WellFormed) : parse (document e.events) = some e := by
  have hprefix : (declaration.toList ++ e.chars 0).dropPrefix? declaration.toList =
      some (e.chars 0) :=
    List.dropPrefix?_eq_some_iff.mpr ⟨declaration.toList, rfl, beq_self_eq_true _⟩
  have hrun := Reader.run_element h 0 .outermost [] []
  rw [List.append_nil] at hrun
  have hroot : Reader.root? ⟨.data [], [Frame.outermost.behindElement 0 e]⟩ = some e := rfl
  rw [parse, Element.toList_document, parseChars, hprefix]
  change (Reader.run ⟨.data [], [.outermost]⟩ (e.chars 0)).bind Reader.root? = some e
  rw [hrun]
  exact hroot

end ExamVariants.Xml
