import Ffado.Util.XmlTree

/-!
# Paths in a tree

`Node.texts` is what a reader sees of a tree: the texts of the nodes that a path leads to. A write
adds its text on its own path, nodes without a text on the paths that lead there and nothing
anywhere else (`texts_insert`), provided that every node on its way is the only one with its path.
-/
namespace Ffado.Util.Xml

open XmlEvents

namespace Node

variable {token : Str}

/-- The texts that a path leads to. -/
def texts (keys : List Str) (n : Node) : List Str := (n.findParts keys).map cdata

@[simp] theorem texts_nil (n : Node) : n.texts [] = [] := by
  rw [texts, findParts]
  rfl

theorem texts_singleton (key : Str) (n : Node) : n.texts [key] = (n.named key).map cdata := by
  rw [texts, findParts]

theorem texts_cons_cons (key key' : Str) (keys : List Str) (n : Node) :
    n.texts (key :: key' :: keys) = (n.named key).flatMap (texts (key' :: keys)) := by
  rw [texts, findParts, List.map_flatMap]
  · rfl
  · simp

/-- A node without children. -/
theorem texts_leaf (keys : List Str) (name cdata : Str) : (mk name cdata []).texts keys = [] := by
  have hnamed : ∀ key, (mk name cdata []).named key = [] := by
    intro key
    rw [named]
    split_ifs <;> rfl
  match keys with
  | [] => exact texts_nil _
  | [key] => rw [texts_singleton, hnamed]; rfl
  | key :: key' :: keys => rw [texts_cons_cons, hnamed]; rfl

@[simp] theorem name_restored (sp : Splitter) (n : Node) : (n.restored sp).name = n.name := by
  obtain ⟨name, cdata, children⟩ := n
  rw [restored]
  rfl

@[simp] theorem cdata_restored (sp : Splitter) (n : Node) :
    (n.restored sp).cdata = lastPiece sp n.cdata := by
  obtain ⟨name, cdata, children⟩ := n
  rw [restored]
  rfl

theorem named_restored (sp : Splitter) (key : Str) (n : Node) :
    (n.restored sp).named key = (n.named key).map (restored sp) := by
  obtain ⟨name, cdata, children⟩ := n
  rw [restored, named, named]
  split_ifs
  · rfl
  · change (children.map (restored sp)).filter _ = (children.filter _).map _
    rw [List.filter_map]
    simp [Function.comp_def]

theorem findParts_restored (sp : Splitter) (keys : List Str) (n : Node) :
    (n.restored sp).findParts keys = (n.findParts keys).map (restored sp) := by
  induction keys generalizing n with
  | nil => rw [findParts, findParts]; rfl
  | cons key keys ih =>
    cases keys with
    | nil => rw [findParts, findParts, named_restored]
    | cons key' keys =>
      rw [findParts, findParts, named_restored, List.flatMap_map, List.map_flatMap]
      · exact List.flatMap_congr fun m _ => ih m
      · simp
      · simp

theorem texts_restored (sp : Splitter) (keys : List Str) (n : Node) :
    (n.restored sp).texts keys = (n.texts keys).map (lastPiece sp) := by
  rw [texts, texts, findParts_restored, List.map_map, List.map_map]
  simp [Function.comp_def]

@[simp] theorem name_insert (text : Str) (tokens : List Str) (n : Node) :
    (n.insert text tokens).name = n.name := by
  obtain ⟨name, cdata, children⟩ := n
  match tokens with
  | [] => rfl
  | [token] => rfl
  | token :: token' :: tokens => rfl

@[simp] theorem cdata_insert (text : Str) (tokens : List Str) (n : Node) :
    (n.insert text tokens).cdata = n.cdata := by
  obtain ⟨name, cdata, children⟩ := n
  match tokens with
  | [] => rfl
  | [token] => rfl
  | token :: token' :: tokens => rfl

/-- The children behind a write below one with a name, which can be new. -/
theorem getD_modifyNamed_cons {key : Str} {n : Node} (hn : n.name ≠ key) (f : Node → Node)
    (fresh : Node) (ns : List Node) :
    (modifyNamed key f (n :: ns)).getD (n :: ns ++ [fresh]) =
      n :: (modifyNamed key f ns).getD (ns ++ [fresh]) := by
  rw [modifyNamed, if_neg hn]
  cases modifyNamed key f ns <;> rfl

/-- The first node with a name is changed among those with the name. -/
def modifyHead (f : Node → Node) (fresh : Node) : List Node → List Node
  | [] => [f fresh]
  | n :: ns => f n :: ns

theorem filter_modifyNamed {key : Str} {f : Node → Node} (hf : ∀ n, (f n).name = n.name)
    {fresh : Node} (hfresh : fresh.name = token) (ns : List Node) :
    (((modifyNamed token f ns).getD (ns ++ [f fresh])).filter fun n => n.name = key) =
      if key = token then modifyHead f fresh (ns.filter fun n => n.name = key)
      else ns.filter fun n => n.name = key := by
  induction ns with
  | nil =>
    rw [modifyNamed, Option.getD_none, List.nil_append, List.filter_cons, hf, hfresh,
      List.filter_nil]
    by_cases hkey : key = token
    · rw [if_pos hkey, hkey]
      simp [modifyHead]
    · rw [if_neg hkey]
      simp [Ne.symm hkey]
  | cons n ns ih =>
    by_cases hn : n.name = token
    · rw [modifyNamed, if_pos hn, Option.getD_some, List.filter_cons, List.filter_cons, hf]
      by_cases hkey : key = token
      · simp [hkey, hn, modifyHead]
      · simp [hkey, hn, Ne.symm hkey]
    · rw [getD_modifyNamed_cons hn, List.filter_cons, List.filter_cons, ih]
      by_cases hkey : key = token
      · simp [hkey, hn]
      · simp [hkey]

theorem named_insert {text token' : Str} (htoken : token ≠ []) (tokens : List Str) (key : Str)
    (n : Node) :
    (n.insert text (token :: token' :: tokens)).named key =
      if key = token then
        modifyHead (insert text (token' :: tokens)) (.mk token [] []) (n.named key)
      else n.named key := by
  obtain ⟨name, cdata, children⟩ := n
  rw [insert, named, named]
  · by_cases hnil : key = []
    · rw [if_pos hnil, if_pos hnil, hnil, if_neg (Ne.symm htoken)]
    · rw [if_neg hnil, if_neg hnil]
      exact filter_modifyNamed (name_insert text (token' :: tokens)) (name_mk token [] []) children
  · simp

theorem named_add (htoken : token ≠ []) (text key : Str) (n : Node) :
    (n.add (.mk token text [])).named key =
      if key = token then n.named key ++ [.mk token text []] else n.named key := by
  obtain ⟨name, cdata, children⟩ := n
  rw [add_mk, named, named]
  by_cases hnil : key = []
  · rw [if_pos hnil, if_pos hnil, hnil, if_neg (Ne.symm htoken)]
  · rw [if_neg hnil, if_neg hnil]
    rw [children_mk, children_mk, List.filter_append]
    by_cases hkey : key = token
    · simp [hkey]
    · simp [hkey, Ne.symm hkey]

/-- What a write leaves on a path. -/
theorem texts_insert {text : Str} {tokens : List Str} (hne : tokens ≠ [])
    (htokens : ∀ token ∈ tokens, token ≠ []) {n : Node}
    (hunique : ∀ keys, keys <+: tokens → keys ≠ tokens → (n.texts keys).length ≤ 1)
    (keys : List Str) :
    (n.insert text tokens).texts keys =
      if keys = tokens then n.texts keys ++ [text]
      else if keys ≠ [] ∧ keys <+: tokens ∧ n.texts keys = [] then [[]]
      else n.texts keys := by
  induction tokens generalizing n keys with
  | nil => exact absurd rfl hne
  | cons token tokens ih =>
    have htoken : token ≠ [] := htokens token List.mem_cons_self
    cases keys with
    | nil => simp
    | cons key keys =>
      cases tokens with
      | nil =>
        rw [insert]
        cases keys with
        | nil =>
          rw [texts_singleton, texts_singleton, named_add htoken]
          by_cases hkey : key = token
          · simp [hkey]
          · simp [hkey]
        | cons key' keys =>
          rw [texts_cons_cons, texts_cons_cons, named_add htoken]
          by_cases hkey : key = token
          · simp [hkey, texts_leaf]
          · simp [hkey]
      | cons token' tokens =>
        by_cases hkey : key = token
        · subst hkey
          have hlength := hunique [key] (by simp) (by simp)
          rw [texts_singleton, List.length_map] at hlength
          cases keys with
          | nil =>
            rw [texts_singleton, texts_singleton, named_insert htoken, if_pos rfl]
            cases hnamed : n.named key with
            | _ => simp [modifyHead]
          | cons key' keys =>
            rw [texts_cons_cons, texts_cons_cons, named_insert htoken, if_pos rfl]
            have htail : ∀ token ∈ token' :: tokens, token ≠ [] := fun t ht =>
              htokens t (List.mem_cons_of_mem key ht)
            cases hnamed : n.named key with
            | nil =>
              have hfresh := @ih (List.cons_ne_nil _ _) htail (.mk key [] [])
                (fun ks _ _ => by simp [texts_leaf]) (key' :: keys)
              simpa [modifyHead, texts_leaf] using hfresh
            | cons m ms =>
              obtain rfl : ms = [] := by simpa [hnamed] using hlength
              have hchild := @ih (List.cons_ne_nil _ _) htail m (fun ks hks hne => by
                cases ks with
                | nil => simp
                | cons k ks =>
                  have hle := hunique (key :: k :: ks) (by simpa using hks) (by simpa using hne)
                  simpa [texts_cons_cons, hnamed] using hle) (key' :: keys)
              simpa [modifyHead] using hchild
        · cases keys with
          | nil =>
            rw [texts_singleton, texts_singleton, named_insert htoken, if_neg hkey]
            simp [hkey]
          | cons key' keys =>
            rw [texts_cons_cons, texts_cons_cons, named_insert htoken, if_neg hkey]
            simp [hkey]

end Node

end Ffado.Util.Xml
