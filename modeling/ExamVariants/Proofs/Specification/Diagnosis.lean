import ExamVariants.Proofs.Specification.Address
import ExamVariants.Proofs.Specification.FirstDefect

namespace ExamVariants.Specification

open Document

namespace Place

/-- The earlier items of the list that a place is in, and of all lists around that. -/
def earlier : Place → List Place
  | document => []
  | question i => (List.range i).map question
  | child p i => p.earlier ++ (List.range i).map (child p)
  | option p i => p.earlier ++ (List.range i).map (option p)

def Decodes : Place → Value → Prop
  | document, v => ∃ exam, decode v = .ok exam
  | option p i, v => ∃ c, decodeChoice (option p i) v = .ok c
  | question i, v => ∃ q, decodeQuestion (question i) v = .ok q
  | child p i, v => ∃ q, decodeQuestion (child p i) v = .ok q

end Place

def Error.place? : Error → Option Place
  | unknownQuestionType p _ | missingField p _ | invalidField p _ _ => some p
  | markup (.field p _) _ | invalidDocument (.node p) => some p
  | invalidDocument .document => some .document
  | _ => none

/-- The path of the error leads to a value of the document, of which the error is true. -/
def PointsAtDefect (document : Value) : Error → Prop
  | .missingField p key => ∃ entries, resolve? document p.text = some (.mapping entries) ∧
      Value.find? key entries = none
  | .invalidField p key expected => ∃ entries v,
      resolve? document p.text = some (.mapping entries) ∧ Value.find? key entries = some v ∧
      ¬expected.Admits v
  | .unknownQuestionType p found => ∃ entries,
      resolve? document p.text = some (.mapping entries) ∧
      Value.find? "type" entries = some (.text found) ∧ ∀ kind : QuestionKind, ¬kind.Names found
  | .markup (.field p key) source => ∃ v raw,
      resolve? document (TextPlace.field p key).text = some v ∧ ScalarText v raw ∧
      Markup.parse raw = .error source
  | .invalidDocument (.node p) => ∃ v, resolve? document p.text = some v ∧
      ∀ entries, v ≠ .mapping entries
  | .invalidDocument .document => ∀ entries, document ≠ .mapping entries
  | _ => False

variable {document v : Value} {entries : Entries} {role : Role} {place : Place} {list : NodeList}
  {key : String} {e : Error}

theorem nodes_mem_fields (h : .nodes list ∈ role.fields entries) :
    role = .document ↔ list = .questions := by
  cases role with
  | document => simpa [Role.fields] using h
  | choice => simp [Role.fields] at h
  | question =>
    refine iff_of_false nofun ?_
    rintro rfl
    cases hkind : kind? entries with
    | none => simp [Role.fields, hkind] at h
    | some kind => cases kind <;> simp [Role.fields, hkind, fieldsOfKind] at h

theorem text_mem_fields (h : .text key ∈ role.fields entries) :
    role ≠ .document ∧ '.' ∉ key.toList ∧ '[' ∉ key.toList := by
  cases role with
  | document => simp [Role.fields] at h
  | choice =>
    obtain rfl : key = "statement" := by simpa [Role.fields] using h
    decide
  | question =>
    have hkey : key = "statement" ∨ key = "answer" := by
      cases hkind : kind? entries with
      | none => simp [Role.fields, hkind] at h
      | some kind => cases kind <;> simp_all [Role.fields, fieldsOfKind]
    rcases hkey with rfl | rfl <;> decide

theorem listKey_listText_of_nodes (hroot : role = .document ↔ place = .document)
    (h : .nodes list ∈ role.fields entries) (hlist : list.expected = .questions) :
    listKey place.listText = list.key := by
  rw [nodes_mem_fields h] at hroot
  cases list with
  | questions =>
    rw [hroot.mp rfl]
    rfl
  | children => exact Place.listKey_listText (mt hroot.mpr nofun)
  | options => cases hlist

theorem Fault.exists_nodes {f : Field} {p : Place}
    (h : Fault place entries f (.invalidField p key .questions)) :
    p = place ∧ ∃ list, f = .nodes list ∧ list.expected = .questions ∧ list.key = key := by
  -- Only a field whose value is of the wrong kind gives this error.
  generalize he : Error.invalidField p key .questions = e at h
  cases h with
  | @invalid f =>
    obtain ⟨rfl, rfl, hexpected⟩ := Error.invalidField.inj he
    cases f with
    | nodes list => exact ⟨rfl, list, rfl, hexpected.symm, rfl⟩
    | _ => cases hexpected
  | _ => cases he

/-- The induction is over the nodes on the way to the defect, of which the document alone is at the
root. -/
theorem listKey_of_firstDefect (h : FirstDefect role place v e)
    (hroot : role = .document ↔ place = .document) {p : Place}
    (he : e = .invalidField p key .questions) : listKey p.listText = key := by
  induction h with
  | shape => cases he
  | @field role _ entries _ _ f _ hfields _ hfault =>
    subst he
    obtain ⟨rfl, list, rfl, hexpected, rfl⟩ := hfault.exists_nodes
    have hlist : .nodes list ∈ role.fields entries := by simp [hfields]
    exact listKey_listText_of_nodes hroot hlist hexpected
  | @inside _ _ _ _ _ list _ _ _ _ _ _ _ _ _ ih =>
    refine ih ?_ he
    cases list <;> exact iff_of_false nofun nofun

/-- A value that is no list of questions is reported at the place, and under the key, that the path
of the list gives. -/
theorem parts_of_decode_eq_error (hparameters : ParametersDecode document) {p : Place}
    (h : decode document = .error (.invalidField p key .questions)) :
    parentPath p.listText = p.text ∧ listKey p.listText = key := by
  refine ⟨p.parentPath_listText, ?_⟩
  exact listKey_of_firstDefect ((decode_eq_error_iff hparameters).mp h) (iff_of_true rfl rfl) rfl

structure Reached (document : Value) (role : Role) (place : Place) (v : Value) : Prop where
  resolved : resolve? document place.text = some v
  root : role = .document ↔ place = .document
  earlier : ∀ r ∈ place.earlier, ∃ u, resolve? document r.text = some u ∧ r.Decodes u

theorem reached_document (document : Value) : Reached document .document .document document where
  resolved := resolve?_document
  root := iff_of_true rfl rfl
  earlier := List.forall_mem_nil _

theorem resolve?_placeAt (hplace : Reached document role place (.mapping entries))
    (hlist : .nodes list ∈ role.fields entries) {items : List Value}
    (hitems : Value.find? list.key entries = some (.list items)) (i : Nat) :
    resolve? document (list.placeAt place i).text = items[i]? := by
  have hroot : place = .document ↔ list = .questions :=
    hplace.root.symm.trans (nodes_mem_fields hlist)
  have hitem : (entryAt? list.key (.mapping entries)).bind (itemAt? i) = items[i]? := by
    rw [entryAt?, hitems]
    rfl
  -- Only the questions of the document stand at its root; the other lists belong to a node.
  cases list with
  | questions =>
    obtain rfl := hroot.mpr rfl
    obtain rfl := Option.some.inj hplace.resolved
    exact (resolve?_question i).trans hitem
  | children =>
    have hne : place ≠ .document := mt hroot.mp nofun
    refine (resolve?_child hne i).trans ?_
    rw [hplace.resolved]
    exact hitem
  | options =>
    have hne : place ≠ .document := mt hroot.mp nofun
    refine (resolve?_option hne i).trans ?_
    rw [hplace.resolved]
    exact hitem

theorem decodes_placeAt (h : list.role.Decodes v) (i : Nat) : (list.placeAt place i).Decodes v := by
  cases list with
  | questions | children =>
    obtain ⟨q, hq⟩ := h
    exact ⟨q, decodeQuestion_eq_ok_iff.mpr hq⟩
  | options =>
    obtain ⟨c, hc⟩ := h
    exact ⟨c, decodeChoice_eq_ok_iff.mpr hc⟩

theorem mem_earlier_placeAt {r : Place} {i : Nat} (h : r ∈ (list.placeAt place i).earlier) :
    r ∈ place.earlier ∨ ∃ j < i, r = list.placeAt place j := by
  have hsibling {placeAt : Nat → Place} (hr : r ∈ (List.range i).map placeAt) :
      ∃ j < i, r = placeAt j := by
    obtain ⟨j, hj, rfl⟩ := List.mem_map.mp hr
    exact ⟨j, List.mem_range.mp hj, rfl⟩
  cases list with
  | questions => exact .inr (hsibling h)
  | children | options => exact (List.mem_append.mp h).imp_right hsibling

theorem Reached.item (h : Reached document role place (.mapping entries))
    (hlist : .nodes list ∈ role.fields entries) {us ws : List Value}
    (hitems : Value.find? list.key entries = some (.list (us ++ v :: ws)))
    (hus : ∀ u ∈ us, list.role.Decodes u) :
    Reached document list.role (list.placeAt place us.length) v where
  resolved := by
    rw [resolve?_placeAt h hlist hitems]
    simp
  root := by cases list <;> exact iff_of_false nofun nofun
  earlier r hr := by
    rcases mem_earlier_placeAt hr with hr | ⟨j, hj, rfl⟩
    · exact h.earlier r hr
    · refine ⟨us[j], ?_, decodes_placeAt (hus _ (List.getElem_mem hj)) j⟩
      rw [resolve?_placeAt h hlist hitems, List.getElem?_append_left hj,
        List.getElem?_eq_getElem hj]

theorem pointsAtDefect_of_fault {f : Field} (h : Reached document role place (.mapping entries))
    (hf : f ∈ role.fields entries) (hfault : Fault place entries f e) :
    PointsAtDefect document e ∧ e.place? = some place := by
  cases hfault with
  | missing hfind => exact ⟨⟨entries, h.resolved, hfind⟩, rfl⟩
  | invalid hfind hv => exact ⟨⟨entries, _, h.resolved, hfind, hv⟩, rfl⟩
  | unknownKind hfind htag => exact ⟨⟨entries, h.resolved, hfind, htag⟩, rfl⟩
  | markup hraw hparse =>
    obtain ⟨hrole, hdot, hbracket⟩ := text_mem_fields hf
    obtain ⟨v, hfind, hv⟩ := hraw
    refine ⟨⟨v, _, ?_, hv, hparse⟩, rfl⟩
    rw [resolve?_field (mt h.root.mpr hrole) hdot hbracket, h.resolved]
    exact hfind

theorem pointsAtDefect_of_shape (h : Reached document role place v)
    (hv : ∀ entries, v ≠ .mapping entries) :
    PointsAtDefect document (.invalidDocument (role.shapeFault place)) ∧
      (Error.invalidDocument (role.shapeFault place)).place? = some place := by
  cases role with
  | document =>
    obtain rfl := h.root.mp rfl
    obtain rfl := Option.some.inj h.resolved
    exact ⟨hv, rfl⟩
  | question | choice => exact ⟨⟨v, h.resolved, hv⟩, rfl⟩

/-- The first defect of a node on the way is where the way ends. The induction is over the nodes on
the rest of the way, and that each of them is reached is its invariant. -/
theorem pointsAtDefect_of_firstDefect (h : FirstDefect role place v e)
    (hreached : Reached document role place v) :
    PointsAtDefect document e ∧ ∃ p, e.place? = some p ∧
      ∀ r ∈ p.earlier, ∃ u, resolve? document r.text = some u ∧ r.Decodes u := by
  induction h with
  | shape hv =>
    obtain ⟨hpoints, hplace⟩ := pointsAtDefect_of_shape hreached hv
    exact ⟨hpoints, _, hplace, hreached.earlier⟩
  | field hfields _ hfault =>
    obtain ⟨hpoints, hplace⟩ := pointsAtDefect_of_fault hreached (hfields ▸ by simp) hfault
    exact ⟨hpoints, _, hplace, hreached.earlier⟩
  | inside hfields _ hitems hus _ ih => exact ih (hreached.item (hfields ▸ by simp) hitems hus)

/-- If the parameters decode, decoding fails just with the error of the first defect in the order of
decoding. Its path leads to that defect, and every question, child and option before it, in the
lists on the way, stands where its own path leads and decodes. -/
theorem decode_error_is_first_defect (hparameters : ParametersDecode document) :
    (decode document = .error e ↔ FirstDefect .document .document document e) ∧
      (decode document = .error e → PointsAtDefect document e ∧
        ∃ p, e.place? = some p ∧
          ∀ r ∈ p.earlier, ∃ u, resolve? document r.text = some u ∧ r.Decodes u) := by
  have hfirst : decode document = .error e ↔ FirstDefect .document .document document e :=
    decode_eq_error_iff hparameters
  refine ⟨hfirst, fun h => ?_⟩
  exact pointsAtDefect_of_firstDefect (hfirst.mp h) (reached_document document)

def taggedOption : Value :=
  .mapping [("questions", .list [
    .mapping [("answer", .bool true), ("points", .number (.integer 1)), ("statement", .text "A"),
      ("type", .text "true-false")],
    .mapping [("children", .list [
        .mapping [("answer", .bool false), ("points", .number (.integer 2)),
          ("statement", .text "B"), ("type", .text "true-false")],
        .mapping [("options", .list [
            .mapping [("correct", .bool true), ("statement", .text "C")],
            .mapping [("correct", .bool false), ("statement", .text "<u>D</u>")]]),
          ("points", .number (.integer 3)), ("statement", .text "E"),
          ("type", .text "closed-ended")]]),
      ("statement", .text "F"), ("type", .text "compound")]])]

def taggedOptionError : Error :=
  .markup (.field (.option (.child (.question 1) 1) 1) "statement") ⟨"u", 0⟩

/-- Three nodes come before: a question, a child and an option. -/
theorem decode_error_is_first_defect_taggedOption :
    ParametersDecode taggedOption ∧ decode taggedOption = .error taggedOptionError ∧
      FirstDefect .document .document taggedOption taggedOptionError ∧
      PointsAtDefect taggedOption taggedOptionError ∧
      ∀ r ∈ [Place.question 0, .child (.question 1) 0, .option (.child (.question 1) 1) 0],
        ∃ u, resolve? taggedOption r.text = some u ∧ r.Decodes u := by
  have hparameters : ParametersDecode taggedOption := by
    intro entries v hentries hfind
    cases hentries
    cases hfind
  have hdecode : decode taggedOption = .error taggedOptionError := by
    have hfails : (decode taggedOption).map (fun _ => ()) = .error taggedOptionError := by
      decide +kernel
    cases h : decode taggedOption with
    | error e =>
      rw [h] at hfails
      rw [Except.error.inj hfails]
    | ok exam =>
      rw [h] at hfails
      cases hfails
  obtain ⟨hfirst, hplace⟩ := decode_error_is_first_defect (e := taggedOptionError) hparameters
  obtain ⟨hpoints, p, hp, hearlier⟩ := hplace hdecode
  obtain rfl := Option.some.inj hp
  exact ⟨hparameters, hdecode, hfirst.mp hdecode, hpoints, hearlier⟩

end ExamVariants.Specification
