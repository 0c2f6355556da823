/-
Letters without their accents: the characters of the canonical decomposition that are not marks.
A syllable block decomposes by arithmetic, every other letter by table.
-/
import RefPages.Text.Letter

namespace RefPages.Text

/-- Stretches of characters from the given code point on, with the base character of each. -/
def baseStretches : List (Nat × String) :=
  [
    (192, "AAAAAA"), (199, "CEEEEIIII"), (209, "NOOOOO"), (217, "UUUUY"), (224, "aaaaaa"),
    (231, "ceeeeiiii"), (241, "nooooo"), (249, "uuuuy"), (255, "yAaAaAaCcCcCcCcDd"),
    (274, "EeEeEeEeEeGgGgGgGgHh"), (296, "IiIiIiIiI"), (308, "JjKk"), (313, "LlLlLl"),
    (323, "NnNnNn"), (332, "OoOoOo"), (340, "RrRrRrSsSsSsSsTtTt"),
    (360, "UuUuUuUuUuUuWwYyYZzZzZz"), (416, "Oo"), (431, "Uu"), (461, "AaIiOoUuUuUuUuUu"),
    (478, "AaAaÆæ"), (486, "GgKkOoOoƷʒj"), (500, "Gg"),
    (504, "NnAaÆæØøAaAaEeEeIiIiOoOoRrRrUuUuSsTt"), (542, "Hh"), (550, "AaEeOoOoOoOoYy"),
    (884, "ʹ"), (894, ";"), (901, "¨Α·ΕΗΙ"), (908, "Ο"), (910, "ΥΩι"), (938, "ΙΥαεηιυ"),
    (970, "ιυουω"), (979, "ϒϒ"), (1024, "ЕЕ"), (1027, "Г"), (1031, "І"), (1036, "КИУ"),
    (1049, "И"), (1081, "и"), (1104, "ее"), (1107, "г"), (1111, "і"), (1116, "киу"), (1142, "Ѵѵ"),
    (1217, "Жж"), (1232, "АаАа"), (1238, "Ее"), (1242, "ӘәЖжЗз"), (1250, "ИиИиОо"),
    (1258, "ӨөЭэУуУуУуЧч"), (1272, "Ыы"), (1570, "ااواي"), (1728, "ە"), (1730, "ہ"), (1747, "ے"),
    (2345, "न"), (2353, "र"), (2356, "ळ"), (2392, "कखगजडढफय"), (2524, "ডঢ"), (2527, "য"),
    (2611, "ਲ"), (2614, "ਸ"), (2649, "ਖਗਜ"), (2654, "ਫ"), (2908, "ଡଢ"), (2964, "ஒ"), (3907, "ག"),
    (3917, "ཌ"), (3922, "ད"), (3927, "བ"), (3932, "ཛ"), (3945, "ཀ"), (4134, "ဥ"), (6918, "ᬅ"),
    (6920, "ᬇ"), (6922, "ᬉ"), (6924, "ᬋ"), (6926, "ᬍ"), (6930, "ᬑ"),
    (7680, "AaBbBbBbCcDdDdDdDdDdEeEeEeEeEeFfGgHhHhHhHhHhIiIiKkKkKkLlLlLlLlMmMmMmNnNnNnNnOoOo"),
    (7760, "OoOoPpPpRrRrRrRrSsSsSsSsSsTtTtTtTtUuUuUuUuUuVvVvWwWwWwWwWwXxXxYyZzZzZzhtwy"),
    (7835, "ſ"),
    (7840, "AaAaAaAaAaAaAaAaAaAaAaAaEeEeEeEeEeEeEeEeIiIiOoOoOoOoOoOoOoOoOoOoOoOoUuUuUuUuUuUu"),
    (7920, "UuYyYyYyYy"), (7936, "ααααααααΑΑΑΑΑΑΑΑεεεεεε"), (7960, "ΕΕΕΕΕΕ"),
    (7968, "ηηηηηηηηΗΗΗΗΗΗΗΗιιιιιιιιΙΙΙΙΙΙΙΙοοοοοο"), (8008, "ΟΟΟΟΟΟ"), (8016, "υυυυυυυυ"),
    (8025, "Υ"), (8027, "Υ"), (8029, "Υ"), (8031, "ΥωωωωωωωωΩΩΩΩΩΩΩΩααεεηηιιοουυωω"),
    (8064, "ααααααααΑΑΑΑΑΑΑΑηηηηηηηηΗΗΗΗΗΗΗΗωωωωωωωωΩΩΩΩΩΩΩΩααααα"), (8118, "ααΑΑΑΑΑ"),
    (8126, "ι"), (8129, "¨ηηη"), (8134, "ηηΕΕΗΗΗ᾿᾿᾿ιιιι"), (8150, "ιιΙΙΙΙ"),
    (8157, "῾῾῾υυυυρρυυΥΥΥΥΡ¨¨`"), (8178, "ωωω"), (8182, "ωωΟΟΩΩΩ´"), (8192, "  "), (8486, "Ω"),
    (8490, "KA"), (8602, "←→"), (8622, "↔"), (8653, "⇐⇔⇒"), (8708, "∃"), (8713, "∈"), (8716, "∋"),
    (8740, "∣"), (8742, "∥"), (8769, "∼"), (8772, "≃"), (8775, "≅"), (8777, "≈"), (8800, "="),
    (8802, "≡"), (8813, "≍<>≤≥"), (8820, "≲≳"), (8824, "≶≷"), (8832, "≺≻"), (8836, "⊂⊃"),
    (8840, "⊆⊇"), (8876, "⊢⊨⊩⊫"), (8928, "≼≽⊑⊒"), (8938, "⊲⊳⊴⊵"), (9001, "〈〉"), (10972, "⫝"),
    (12364, "か"), (12366, "き"), (12368, "く"), (12370, "け"), (12372, "こ"), (12374, "さ"),
    (12376, "し"), (12378, "す"), (12380, "せ"), (12382, "そ"), (12384, "た"), (12386, "ち"),
    (12389, "つ"), (12391, "て"), (12393, "と"), (12400, "はは"), (12403, "ひひ"), (12406, "ふふ"),
    (12409, "へへ"), (12412, "ほほ"), (12436, "う"), (12446, "ゝ"), (12460, "カ"), (12462, "キ"),
    (12464, "ク"), (12466, "ケ"), (12468, "コ"), (12470, "サ"), (12472, "シ"), (12474, "ス"),
    (12476, "セ"), (12478, "ソ"), (12480, "タ"), (12482, "チ"), (12485, "ツ"), (12487, "テ"),
    (12489, "ト"), (12496, "ハハ"), (12499, "ヒヒ"), (12502, "フフ"), (12505, "ヘヘ"), (12508, "ホホ"),
    (12532, "ウ"), (12535, "ワヰヱヲ"), (12542, "ヽ"),
    (63744, "豈更車賈滑串句龜龜契金喇奈懶癩羅蘿螺裸邏樂洛烙珞落酪駱亂卵欄爛蘭鸞嵐濫藍襤拉臘蠟廊朗浪狼郎來冷勞擄櫓爐盧老蘆虜路露魯鷺碌祿綠菉錄鹿論壟弄籠聾牢磊賂雷壘屢樓淚漏累"),
    (63824, "縷陋勒肋凜凌稜綾菱陵讀拏樂諾丹寧怒率異北磻便復不泌數索參塞省葉說殺辰沈拾若掠略亮兩凉梁糧良諒量勵呂女廬旅濾礪閭驪麗黎力曆歷轢年憐戀撚漣煉璉秊練聯輦蓮連鍊列劣咽烈"),
    (63904, "裂說廉念捻殮簾獵令囹寧嶺怜玲瑩羚聆鈴零靈領例禮醴隸惡了僚寮尿料樂燎療蓼遼龍暈阮劉杻柳流溜琉留硫紐類六戮陸倫崙淪輪律慄栗率隆利吏履易李梨泥理痢罹裏裡里離匿溺吝燐璘"),
    (63984, "藺隣鱗麟林淋臨立笠粒狀炙識什茶刺切度拓糖宅洞暴輻行降見廓兀嗀"), (64016, "塚"), (64018, "晴"), (64021, "凞猪益礼神祥福靖精羽"),
    (64032, "蘒"), (64034, "諸"), (64037, "逸都"),
    (64042, "飯飼館鶴郞隷侮僧免勉勤卑喝嘆器塀墨層屮悔慨憎懲敏既暑梅海渚漢煮爫琢碑社祉祈祐祖祝禍禎穀突節練縉繁署者臭艹艹著褐視謁謹賓贈辶逸難響頻恵𤋮舘"),
    (64112, "並况全侀充冀勇勺喝啕喙嗢塚墳奄奔婢嬨廒廙彩徭惘慎愈憎慠懲戴揄搜摒敖晴朗望杖歹殺流滛滋漢瀞煮瞧爵犯猪瑱甆画瘝瘟益盛直睊着磌窱節类絛練缾者荒華蝹襁覆視調諸請謁諾諭謹"),
    (64192, "變贈輸遲醙鉶陼難靖韛響頋頻鬒龜𢡊𢡄𣏕㮝䀘䀹𥉉𥳐𧻓齃龎"), (64285, "י"), (64287, "ײ"), (64298, "ששששאאאבגדהוז"),
    (64312, "טיךכל"), (64318, "מ"), (64320, "נס"), (64323, "ףפ"), (64326, "צקרשתובכפ"),
    (69786, "𑂙"), (69788, "𑂛"), (69803, "𑂥"), (119134, "𝅗𝅘𝅘𝅘𝅘𝅘𝅘"), (119227, "𝆹𝆺𝆹𝆺𝆹𝆺"),
    (194560, "丽丸乁𠄢你侮侻倂偺備僧像㒞𠘺免兔兤具𠔜㒹內再𠕋冗冤仌冬况𩇟凵刃㓟刻剆割剷㔕勇勉勤勺包匆北卉卑博即卽卿卿卿𠨬灰及叟𠭣叫叱吆咞吸呈周咢哶唐啓啣善善喙喫喳嗂圖嘆圗噑噴"),
    (194640, "切壮城埴堍型堲報墬𡓤売壷夆多夢奢𡚨𡛪姬娛娧姘婦㛮㛼嬈嬾嬾𡧈寃寘寧寳𡬘寿将当尢㞁屠屮峀岍𡷤嵃𡷦嵮嵫嵼巡巢㠯巽帨帽幩㡢𢆃㡼庰庳庶廊𪎒廾𢌱𢌱舁弢弢㣇𣊸𦇚形彫㣣徚忍志忹"),
    (194720, "悁㤺㤜悔𢛔惇慈慌慎慌慺憎憲憤憯懞懲懶成戛扝抱拔捐𢬌挽拼捨掃揤𢯱搢揅掩㨮摩摾撝摷㩬敏敬𣀊旣書晉㬙暑㬈㫤冒冕最暜肭䏙朗望朡杞杓𣏃㭉柺枅桒梅𣑭梎栟椔㮝楂榣槪檨𣚣櫛㰘次"),
    (194800, "𣢧歔㱎歲殟殺殻𣪍𡴋𣫺汎𣲼沿泍汧洖派海流浩浸涅𣴞洴港湮㴳滋滇𣻑淹潮𣽞𣾎濆瀹瀞瀛㶖灊災灷炭𠔥煅𤉣熜𤎫爨爵牐𤘈犀犕𤜵𤠔獺王㺬玥㺸㺸瑇瑜瑱璅瓊㼛甤𤰶甾𤲒異𢆟瘐𤾡𤾸𥁄㿼䀈"),
    (194880, "直𥃳𥃲𥄙𥄳眞真真睊䀹瞋䁆䂖𥐝硎碌磌䃣𥘦祖𥚚𥛅福秫䄯穀穊穏𥥼𥪧𥪧竮䈂𥮫篆築䈧𥲀糒䊠糨糣紀𥾆絣䌁緇縂繅䌴𦈨𦉇䍙𦋙罺𦌾羕翺者𦓚𦔣聠𦖨聰𣍟䏕育脃䐋脾媵𦞧𦞵𣎓𣎜舁舄辞䑫芑"),
    (194960, "芋芝劳花芳芽苦𦬼若茝荣莭茣莽菧著荓菊菌菜𦰶𦵫𦳕䔫蓱蓳蔖𧏊蕤𦼬䕝䕡𦾱𧃒䕫虐虜虧虩蚩蚈蜎蛢蝹蜨蝫螆䗗蟡蠁䗹衠衣𧙧裗裞䘵裺㒻𧢮𧥦䚾䛇誠諭變豕𧲨貫賁贛起𧼯𠠄跋趼跰𠣞軔輸"),
    (195040, "𨗒𨗭邔郱鄑𨜮鄛鈸鋗鋘鉼鏹鐕𨯺開䦕閷𨵷䧦雃嶲霣𩅅𩈚䩮䩶韠𩐊䪲𩒖頋頋頩𩖶飢䬳餩馧駂駾䯎𩬰鬒鱀鳽䳎䳭鵧𪃎䳸𪄅𪈎𪊑麻䵖黹黾鼅鼏鼖鼻𪘀")]

/-- The stretches with their texts spread out, once and for all. -/
def baseTable : List (Nat × Array Char) :=
  baseStretches.map fun (first, bases) => (first, bases.toList.toArray)

/-- The lead, vowel and tail of the syllable block with index `s`; the tail may be absent. -/
def syllableParts (s : Nat) : List Char :=
  let tail := s % 28
  [Char.ofNat (0x1100 + s / 588), Char.ofNat (0x1161 + s % 588 / 28)] ++
    if tail = 0 then [] else [Char.ofNat (0x11A7 + tail)]

/-- What the canonical decomposition of a character holds besides marks. -/
def withoutAccents (c : Char) : List Char :=
  if c.toNat < 128 then [c]
  else if 0xAC00 ≤ c.toNat && c.toNat ≤ 0xD7A3 then syllableParts (c.toNat - 0xAC00)
  else if isMark c then []
  else
    match baseTable.findSome? fun (first, bases) =>
        if first ≤ c.toNat then bases[c.toNat - first]? else none with
    | some base => [base]
    | none => [c]

/-- The text without accents. -/
def unaccented (cs : List Char) : List Char := cs.flatMap withoutAccents

end RefPages.Text
