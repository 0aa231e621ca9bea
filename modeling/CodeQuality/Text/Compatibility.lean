import Std.Data.HashMap
import CodeQuality.Text.Ranges

namespace CodeQuality
namespace Text

/-!
The compatibility form of identifiers.

Two spellings of one identifier, such as a ligature and its letters or a
full-width letter and the plain one, are the same name.  `compatibilityForm`
takes a text to the spelling they share: every character is replaced by its
compatibility decomposition, combining marks are put into canonical order, and
the result is composed again.  The tables cover the characters that identifiers
may hold.
-/

/-- All words of a table as lists of hexadecimal numbers. -/
def hexRows (line : String) : List (List Nat) :=
  (words line.toList).map fun word => (fields word).map hexValue

/-- All words of a table as the numbers of their characters. -/
def letterRows (line : String) : List (List Nat) :=
  (words line.toList).map fun word => word.map Char.toNat

/-- Runs of characters that stand for runs of others: the first, its counterpart, how many. -/
def counterpartRuns : List (List Nat) := hexRows
  "1d33,47,8 1d5d,3b2,3 1da4,268,3 1dae,272,4 3137,1103,3 313a,11b0,6 3145,1109,a 314f,1161,15
  3178,112b,5 3184,1157,3 ff10,30,a ff21,41,1a ff41,61,1a ff85,30ca,6 ff8f,30de,5 ff96,30e8,6
  ffa7,1103,3 ffaa,11b0,6 ffb5,1109,a ffc2,1161,6 ffca,1167,6 ffd2,116d,6 ffda,1173,3 1d400,41,1a
  1d41a,61,1a 1d434,41,1a 1d44e,61,7 1d456,69,12 1d468,41,1a 1d482,61,1a 1d4a9,4e,4 1d4ae,53,8
  1d4b6,61,4 1d4bd,68,7 1d4c5,70,b 1d4d0,41,1a 1d4ea,61,1a 1d507,44,4 1d50d,4a,8 1d516,53,7
  1d51e,61,1a 1d53b,44,4 1d540,49,5 1d54a,53,7 1d552,61,1a 1d56c,41,1a 1d586,61,1a 1d5a0,41,1a
  1d5ba,61,1a 1d5d4,41,1a 1d5ee,61,1a 1d608,41,1a 1d622,61,1a 1d63c,41,1a 1d656,61,1a 1d670,41,1a
  1d68a,61,1a 1d6a8,391,11 1d6ba,3a3,7 1d6c2,3b1,19 1d6e2,391,11 1d6f4,3a3,7 1d6fc,3b1,19
  1d71c,391,11 1d72e,3a3,7 1d736,3b1,19 1d756,391,11 1d768,3a3,7 1d770,3b1,19 1d790,391,11
  1d7a2,3a3,7 1d7aa,3b1,19 1d7ce,30,a 1d7d8,30,a 1d7e2,30,a 1d7ec,30,a 1d7f6,30,a 1ee8b,644,3
  1eeab,644,3 1fbf0,30,a"

/-- Neighbours that stand for equally many others each: the first, a digit for how many, then
those. -/
def counterpartLists : List (List Nat) := letterRows
  "ª1a µ1μ º1o Ĳ2IJij Ŀ2L·l· ŉ2ʼn ſ1s Ǆ3DŽDždž Ǉ2LJLjljNJNjnj Ǳ2DZDzdz ʰ1hɦjrɹɻʁwy ˠ1ɣlsxʕ ̀1̀́
  ̓1̓ ̈́2̈́ ʹ1ʹ ·1· ϐ1βθΥ ϕ1φπ ϰ1κρς ϴ1Θε Ϲ1Σ և2եւ ٵ2اٴوٴۇٴيٴ क़2क़ख़ग़ज़ड़ढ़फ़य़ ড়2ড়ঢ় য়2য় ਲ਼2ਲ਼
  ਸ਼2ਸ਼ ਖ਼2ਖ਼ਗ਼ਜ਼ ਫ਼2ਫ਼ ଡ଼2ଡ଼ଢ଼ ำ2ํา ຳ2ໍາ ໜ2ຫນຫມ གྷ2གྷ ཌྷ2ཌྷ དྷ2དྷ བྷ2བྷ ཛྷ2ཛྷ ཀྵ2ཀྵ ཱི2ཱི ཱུ2ཱུྲྀ ཷ3ྲཱྀ ླྀ2ླྀ
  ཹ3ླཱྀ ཱྀ2ཱྀ ྒྷ2ྒྷ ྜྷ2ྜྷ ྡྷ2ྡྷ ྦྷ2ྦྷ ྫྷ2ྫྷ ྐྵ2ྐྵ ჼ1ნ ᴬ1AÆB ᴰ1DEƎ ᴼ1OȢPRTUWaɐɑᴂbdeəɛɜg ᵏ1kmŋoɔᴖᴗptuᴝɯvᴥ
  ᵠ1φχiruvβγρφχ ᵸ1н ᶛ1ɒcɕðɜfɟɡɥ ᶧ1ᵻʝɭᶅʟɱɰ ᶲ1ɸʂʃƫʉʊᴜʋʌzʐʑʒθ ẚ2aʾ ά2ά έ2έ ή2ή ί2ί ό2ό ύ2ύ ώ2ώ
  Ά2Ά ι1ι Έ2Έ Ή2Ή ΐ3ΐ Ί2Ί ΰ3ΰ Ύ2Ύ Ό2Ό Ώ2Ώ ⁱ1i ⁿ1n ₐ1aeoxəhklmnpst ℂ1C ℇ1Ɛ ℊ1gHHHhħIILl
  ℕ1N ℙ1PQRRR ℤ1Z Ω1Ω ℨ1Z K1K Å2Å ℬ1BC ℯ1eEF ℳ1Moאבגדi ℼ1πγΓΠ ⅅ1Ddeij Ⅰ1I Ⅱ2II Ⅲ3III Ⅳ2IV Ⅴ1V Ⅵ2VI
  Ⅶ3VII Ⅷ4VIII Ⅸ2IX Ⅹ1X Ⅺ2XI Ⅻ3XII Ⅼ1LCDMi ⅱ2ii ⅲ3iii ⅳ2iv ⅴ1v ⅵ2vi ⅶ3vii ⅷ4viii ⅸ2ix ⅹ1x ⅺ2xi
  ⅻ3xii ⅼ1lcdm ⱼ1jV ⵯ1ⵡ 〸1十卄卅 ゟ2より ヿ2コト ㄱ1ᄀᄁᆪᄂᆬᆭ ㅀ1ᄚᄆᄇᄈᄡ ㅤ1ᅠᄔᄕᇇᇈᇌᇎᇓᇗᇙᄜᇝᇟᄝᄞᄠᄢᄣᄧᄩ ㅽ1ᄲᄶᅀᅇᅌᇱᇲ
  ㆇ1ᆄᆅᆈᆑᆒᆔᆞᆡ ꚜ1ъь ꝰ1ꝯ ꟲ1CFQ ꟸ1Ħœ ꭜ1ꜧꬷɫꭒ ꭩ1ʍ
  豈1豈更車賈滑串句龜龜契金喇奈懶癩羅蘿螺裸邏樂洛烙珞落酪駱亂卵欄爛蘭鸞嵐濫藍襤拉臘蠟廊朗浪狼郎來冷勞擄櫓爐盧老蘆虜路露魯鷺碌祿綠菉錄鹿論壟弄籠聾牢磊賂雷壘屢樓淚漏累縷陋勒肋凜
  凌1凌稜綾菱陵讀拏樂諾丹寧怒率異北磻便復不泌數索參塞省葉說殺辰沈拾若掠略亮兩凉梁糧良諒量勵呂女廬旅濾礪閭驪麗黎力曆歷轢年憐戀撚漣煉璉秊練聯輦蓮連鍊列劣咽烈裂說廉念捻殮簾獵令囹
  寧1寧嶺怜玲瑩羚聆鈴零靈領例禮醴隸惡了僚寮尿料樂燎療蓼遼龍暈阮劉杻柳流溜琉留硫紐類六戮陸倫崙淪輪律慄栗率隆利吏履易李梨泥理痢罹裏裡里離匿溺吝燐璘藺隣鱗麟林淋臨立笠粒狀炙識什茶
  刺1刺切度拓糖宅洞暴輻行降見廓兀嗀 塚1塚 晴1晴 凞1凞猪益礼神祥福靖精羽 蘒1蘒 諸1諸 逸1逸都
  飯1飯飼館鶴郞隷侮僧免勉勤卑喝嘆器塀墨層屮悔慨憎懲敏既暑梅海渚漢煮爫琢碑社祉祈祐祖祝禍禎穀突節練縉繁署者臭艹艹著褐視謁謹賓贈辶逸難響頻恵𤋮舘
  並1並况全侀充冀勇勺喝啕喙嗢塚墳奄奔婢嬨廒廙彩徭惘慎愈憎慠懲戴揄搜摒敖晴朗望杖歹殺流滛滋漢瀞煮瞧爵犯猪瑱甆画瘝瘟益盛直睊着磌窱節类絛練缾者荒華蝹襁覆視調諸請謁諾諭謹變贈輸遲醙
  鉶1鉶陼難靖韛響頋頻鬒龜𢡊𢡄𣏕㮝䀘䀹𥉉𥳐𧻓齃龎 ﬀ2fffifl ﬃ3ffiffl ﬅ2stst ﬓ2մնմեմիվնմխ יִ2יִ ײַ2ײַ ﬠ1עאדהכלםרת שׁ2שׁשׂ
  שּׁ3שּׁשּׂ אַ2אַאָאּבּגּדּהּוּזּ טּ2טּיּךּכּלּ מּ2מּ נּ2נּסּ ףּ2ףּפּ צּ2צּקּרּשּתּוֹבֿכֿפֿאל
  ﭐ1ٱٱٻٻٻٻپپپپڀڀڀڀٺٺٺٺٿٿٿٿٹٹٹٹڤڤڤڤڦڦڦڦڄڄڄڄڃڃڃڃچچچچڇڇڇڇڍڍڌڌڎڎڈڈژژڑڑککککگگگگڳڳڳڳڱڱڱڱںںڻڻڻڻ ﮤ2ۀۀ
  ﮦ1ہہہہھھھھےے ﮰ2ۓۓ ﯓ1ڭڭڭڭۇۇۆۆۈۈ ﯝ2ۇٴ ﯞ1ۋۋۅۅۉۉېېېېىى
  ﯪ3ئائائەئەئوئوئۇئۇئۆئۆئۈئۈئېئېئېئىئىئى ﯼ1یییی ﰀ3ئجئحئمئىئي
  ﰅ2بجبحبخبمبىبيتجتحتختمتىتيثجثمثىثيجحجمحجحمخجخحخمسجسحسخسمصحصمضجضحضخضمطحطمظمعجعمغجغمفجفحفخفم
  ﰱ2فىفيقحقمقىقيكاكجكحكخكلكمكىكيلجلحلخلملىليمجمحمخمممىمينجنحنخنمنىنيهجهمهىهييجيحيخيميىييذٰرٰىٰ
  ﱤ3ئرئزئمئنئىئي
  ﱪ2بربزبمبنبىبيترتزتمتنتىتيثرثزثمثنثىثيفىفيقىقيكاكلكمكىكيلملىليماممنرنزنمنننىنيىٰيريزيمينيىيي
  ﲗ3ئجئحئخئمئه
  ﲜ2بجبحبخبمبهتجتحتختمتهثمجحجمحجحمخجخمسجسحسخسمصحصخصمضجضحضخضمطحظمعجعمغجغمفجفحفخفمقحقمكجكحكخكل
  ﳈ2كملجلحلخلملهمجمحمخممنجنحنخنمنههجهمهٰيجيحيخيميه ﳟ3ئمئه ﳡ2بمبهتمتهثمثهسمسهشمشهكلكملمنمنهيميه
  ﳲ3ـَّـُّـِّ
  ﳵ2طىطيعىعيغىغيسىسيشىشيحىحيجىجيخىخيصىصيضىضيشجشحشخشمشرسرصرضرطىطيعىعيغىغيسىسيشىشيحىحيجىجيخىخي
  ﴡ2صىصيضىضيشجشحشخشمشرسرصرضرشجشحشخشمسهشهطمسجسحسخشجشحشخطمظماًاً
  ﵐ3تجمتحجتحجتحمتخمتمجتمحتمخجمحجمححميحمىسحجسجحسجىسمحسمحسمجسممسممصححصححصممشحمشحمشجيشمخشمخ
  ﵬ3شممشممضحىضخمضخمطمحطمحطممطميعجمعممعممعمىغممغميغمىفخمفخمقمحقمملحملحيلحىلججلججلخملخملمح
  ﶈ3لمحمحجمحممحيمجحمجممخجمخم
  ﶒ3مجخهمجهممنحمنحىنجمنجمنجىنمينمىيمميممبخيتجيتجىتخيتخىتميتمىجميجحىجمىسخىصحيشحيضحيلجيلمي
  ﶮ3يحييجييميمميقمينحيقمحلحمعميكمينجحمخيلجمكمملجمنجحجحيحجيمجيفميبحيكممعجمصممسخينجي ﷰ3صلےقلے
  ﷲ4اللهاكبرمحمدصلعمرسولعليهوسلم ﷹ3صلى ︳1__ ﹍1___ ﹱ2ـً ﹷ2ـَ ﹹ2ـُ ﹻ2ـِ ﹽ2ـّ ﹿ2ـْ ﺀ1ء
  ﺁ2آآأأؤؤإإئئئئ
  ﺍ1ااببببةةتتتتثثثثججججححححخخخخددذذررززسسسسششششصصصصضضضضططططظظظظععععغغغغففففققققككككللللمممم
  ﻥ1ننننههههووىىيييي ﻵ3لآلآلألألإلإ ﻻ2لالا ＿1_ ｦ1ヲァィゥェォャュョッーアイウエオカキクケコサシスセソタチツテト ﾋ1ヒフヘホ ﾔ1ヤユ
  ﾜ1ワン゙゚ᅠᄀᄁᆪᄂᆬᆭ ﾰ1ᄚᄆᄇᄈᄡ 𐞁1ːˑæʙɓ 𐞇1ʣꭦʥʤɖɗᶑɘɞʩɤɢɠʛħʜɧʄʪʫɬ𝼄ꞎɮ𝼅ʎ𝼆øɶɷqɺ𝼈ɽɾʀʨʦꭧʧʈⱱ 𐞲1ʏʡʢʘǀǁǂ𝼊𝼞 𝒜1A 𝒞1CD
  𝒢1G 𝒥1JK 𝒻1f 𝔄1AB 𝔸1AB 𝕆1O 𝚤1ıȷ 𝚹1Θ 𝛜1εθκφρπ 𝛳1Θ 𝜖1εθκφρπ 𝜭1Θ 𝝐1εθκφρπ 𝝧1Θ 𝞊1εθκφρπ 𝞡1Θ
  𝟄1εθκφρπϜϝ 𞸀1ابجد 𞸅1وزحطيكلمنسعفصقرشتثخذضظغٮںڡٯ 𞸡1بج 𞸤1ه 𞸧1ح 𞸩1يكلمنسعفصق 𞸴1شتثخ 𞸹1ض 𞸻1غ 𞹂1ج 𞹇1ح
  𞹉1ي 𞹋1ل 𞹍1نسع 𞹑1صق 𞹔1ش 𞹗1خ 𞹙1ض 𞹛1غ 𞹝1ں 𞹟1ٯ 𞹡1بج 𞹤1ه 𞹧1حطيك 𞹬1منسعفصق 𞹴1شتثخ 𞹹1ضظغٮ 𞹾1ڡ
  𞺀1ابجدهوزحطي 𞺎1سعفصقرشتثخذضظغ 𞺡1بجد 𞺥1وزحطي 𞺮1سعفصقرشتثخذضظغ
  丽1丽丸乁𠄢你侮侻倂偺備僧像㒞𠘺免兔兤具𠔜㒹內再𠕋冗冤仌冬况𩇟凵刃㓟刻剆割剷㔕勇勉勤勺包匆北卉卑博即卽卿卿卿𠨬灰及叟𠭣叫叱吆咞吸呈周咢哶唐啓啣善善喙喫喳嗂圖嘆圗噑噴切壮城埴
  堍1堍型堲報墬𡓤売壷夆多夢奢𡚨𡛪姬娛娧姘婦㛮㛼嬈嬾嬾𡧈寃寘寧寳𡬘寿将当尢㞁屠屮峀岍𡷤嵃𡷦嵮嵫嵼巡巢㠯巽帨帽幩㡢𢆃㡼庰庳庶廊𪎒廾𢌱𢌱舁弢弢㣇𣊸𦇚形彫㣣徚忍志忹悁㤺㤜悔𢛔惇
  慈1慈慌慎慌慺憎憲憤憯懞懲懶成戛扝抱拔捐𢬌挽拼捨掃揤𢯱搢揅掩㨮摩摾撝摷㩬敏敬𣀊旣書晉㬙暑㬈㫤冒冕最暜肭䏙朗望朡杞杓𣏃㭉柺枅桒梅𣑭梎栟椔㮝楂榣槪檨𣚣櫛㰘次𣢧歔㱎歲殟殺殻𣪍𡴋𣫺
  汎1汎𣲼沿泍汧洖派海流浩浸涅𣴞洴港湮㴳滋滇𣻑淹潮𣽞𣾎濆瀹瀞瀛㶖灊災灷炭𠔥煅𤉣熜𤎫爨爵牐𤘈犀犕𤜵𤠔獺王㺬玥㺸㺸瑇瑜瑱璅瓊㼛甤𤰶甾𤲒異𢆟瘐𤾡𤾸𥁄㿼䀈直𥃳𥃲𥄙𥄳眞真真睊䀹瞋
  䁆1䁆䂖𥐝硎碌磌䃣𥘦祖𥚚𥛅福秫䄯穀穊穏𥥼𥪧𥪧竮䈂𥮫篆築䈧𥲀糒䊠糨糣紀𥾆絣䌁緇縂繅䌴𦈨𦉇䍙𦋙罺𦌾羕翺者𦓚𦔣聠𦖨聰𣍟䏕育脃䐋脾媵𦞧𦞵𣎓𣎜舁舄辞䑫芑芋芝劳花芳芽苦𦬼若茝荣
  莭1莭茣莽菧著荓菊菌菜𦰶𦵫𦳕䔫蓱蓳蔖𧏊蕤𦼬䕝䕡𦾱𧃒䕫虐虜虧虩蚩蚈蜎蛢蝹蜨蝫螆䗗蟡蠁䗹衠衣𧙧裗裞䘵裺㒻𧢮𧥦䚾䛇誠諭變豕𧲨貫賁贛起𧼯𠠄跋趼跰𠣞軔輸𨗒𨗭邔郱鄑𨜮鄛鈸鋗鋘鉼鏹
  鐕1鐕𨯺開䦕閷𨵷䧦雃嶲霣𩅅𩈚䩮䩶韠𩐊䪲𩒖頋頋頩𩖶飢䬳餩馧駂駾䯎𩬰鬒鱀鳽䳎䳭鵧𪃎䳸𪄅𪈎𪊑麻䵖黹黾鼅鼏鼖鼻𪘀"

/-- Pairs that compose: the second, then the firsts, each with the composed character.  What is
composed of composed characters comes after them. -/
def compositionRows : List (List Nat) := letterRows
  "̀AÀEÈIÌNǸOÒUÙWẀYỲaàeèiìnǹoòuùwẁyỳΑᾺΕῈΗῊΙῚΟῸΥῪΩῺαὰεὲηὴιὶοὸυὺωὼЕЀИЍеѐиѝ
  ́AÁCĆEÉGǴIÍKḰLĹMḾNŃOÓPṔRŔSŚUÚWẂYÝZŹaácćeégǵiíkḱlĺmḿnńoópṕrŕsśuúwẃyýzźÆǼØǾæǽøǿΑΆ
  ́ΕΈΗΉΙΊΟΌΥΎΩΏαάεέηήιίοόυύωώϒϓГЃКЌгѓкќ ̂AÂCĈEÊGĜHĤIÎJĴOÔSŜUÛWŴYŶZẐaâcĉeêgĝhĥiîjĵoôsŝuûwŵyŷzẑ
  ̃AÃEẼIĨNÑOÕUŨVṼYỸaãeẽiĩnñoõuũvṽyỹ ̄AĀEĒGḠIĪOŌUŪYȲaāeēgḡiīoōuūyȳÆǢæǣΑᾹΙῙΥῩαᾱιῑυῡИӢУӮиӣуӯ
  ̆AĂEĔGĞIĬOŎUŬaăeĕgğiĭoŏuŭΑᾸΙῘΥῨαᾰιῐυῠАӐЕӖЖӁИЙУЎаӑеӗжӂийуў
  ̇AȦBḂCĊDḊEĖFḞGĠHḢIİMṀNṄOȮPṖRṘSṠTṪWẆXẊYẎZŻaȧbḃcċdḋeėfḟgġhḣmṁnṅoȯpṗrṙsṡtṫwẇxẋyẏzżſẛ
  ̈AÄEËHḦIÏOÖUÜWẄXẌYŸaäeëhḧiïoötẗuüwẅxẍyÿΙΪΥΫιϊυϋϒϔІЇАӒЕЁЖӜЗӞИӤОӦУӰЧӴЫӸЭӬаӓеёжӝзӟиӥоӧуӱчӵыӹэӭіїӘӚәӛ
  ̈ӨӪөӫ ̉AẢEẺIỈOỎUỦYỶaảeẻiỉoỏuủyỷ ̊AÅUŮaåuůwẘyẙ ̋OŐUŰoőuűУӲуӳ
  ̌AǍCČDĎEĚGǦHȞIǏKǨLĽNŇOǑRŘSŠTŤUǓZŽaǎcčdďeěgǧhȟiǐjǰkǩlľnňoǒrřsštťuǔzžƷǮʒǯ
  ̏AȀEȄIȈOȌRȐUȔaȁeȅiȉoȍrȑuȕѴѶѵѷ ̑AȂEȆIȊOȎRȒUȖaȃeȇiȋoȏrȓuȗ ̓ΑἈΕἘΗἨΙἸΟὈΩὨαἀεἐηἠιἰοὀρῤυὐωὠ
  ̔ΑἉΕἙΗἩΙἹΟὉΡῬΥὙΩὩαἁεἑηἡιἱοὁρῥυὑωὡ ̛OƠUƯoơuư
  ̣AẠBḄDḌEẸHḤIỊKḲLḶMṂNṆOỌRṚSṢTṬUỤVṾWẈYỴZẒaạbḅdḍeẹhḥiịkḳlḷmṃnṇoọrṛsṣtṭuụvṿwẉyỵzẓ ̤UṲuṳ ̥AḀaḁ
  ̦SȘTȚsștț ̧CÇDḐEȨGĢHḨKĶLĻNŅRŖSŞTŢcçdḑeȩgģhḩkķlļnņrŗsştţ ̨AĄEĘIĮOǪUŲaąeęiįoǫuų
  ̭DḒEḘLḼNṊTṰUṶdḓeḙlḽnṋtṱuṷ ̮HḪhḫ ̰EḚIḬUṴeḛiḭuṵ ̱BḆDḎKḴLḺNṈRṞTṮZẔbḇdḏhẖkḵlḻnṉrṟtṯzẕ ͂αᾶηῆιῖυῦωῶ
  ͅΑᾼΗῌΩῼαᾳηῃωῳ ٓاآ ٔاأوؤيئہۂےۓەۀ ٕاإ ़नऩरऱळऴ ােো ৗেৌ ାେୋ ୖେୈ ୗେୌ ாெொேோ ௗஒஔெௌ ౖెై ೂೆೊ ೕಿೀೆೇ ೖೆೈ
  ാെൊേോ ൗെൌ ්ෙේ ාෙො ෟෙෞ ီဥဦ ᬵᬅᬆᬇᬈᬉᬊᬋᬌᬍᬎᬑᬒᬺᬻᬼᬽᬾᭀᬿᭁᭂᭃ
  ゙うゔかがきぎくぐけげこごさざしじすずせぜそぞただちぢつづてでとどはばひびふぶへべほぼゝゞウヴカガキギクグケゲコゴサザシジスズセゼソゾタダチヂツヅテデトドハバヒビフブヘベホボワヷヰヸヱヹヲヺヽヾ
  ゚はぱひぴふぷへぺほぽハパヒピフプヘペホポ 𑂺𑂙𑂚𑂛𑂜𑂥𑂫 𑄧𑄱𑄮𑄲𑄯 𑌾𑍇𑍋 𑍗𑍇𑍌 𑒰𑒹𑒼 𑒺𑒹𑒻 𑒽𑒹𑒾 𑖯𑖸𑖺𑖹𑖻 𑤰𑤵𑤸
  ̀ÂẦÊỀÔỒÜǛâầêềôồüǜĂẰăằĒḔēḕŌṐōṑƠỜơờƯỪưừϊῒϋῢἀἂἁἃἈἊἉἋἐἒἑἓἘἚἙἛἠἢἡἣἨἪἩἫἰἲἱἳἸἺἹἻὀὂὁὃὈὊὉὋὐὒὑὓὙὛὠὢὡὣὨὪὩὫ
  ́ÂẤÅǺÇḈÊẾÏḮÔỐÕṌÜǗâấåǻçḉêếïḯôốõṍüǘĂẮăắĒḖēḗŌṒōṓŨṸũṹƠỚơớƯỨưứϊΐϋΰἀἄἁἅἈἌἉἍἐἔἑἕἘἜἙἝἠἤἡἥἨἬ
  ́ἩἭἰἴἱἵἸἼἹἽὀὄὁὅὈὌὉὍὐὔὑὕὙὝὠὤὡὥὨὬὩὭ ̂ẠẬạậẸỆẹệỌỘọộ ̃ÂẪÊỄÔỖâẫêễôỗĂẴăẵƠỠơỡƯỮưữ
  ̄ÄǞÕȬÖȪÜǕäǟõȭöȫüǖǪǬǫǭȦǠȧǡȮȰȯȱḶḸḷḹṚṜṛṝ ̆ȨḜȩḝẠẶạặ ̇ŚṤśṥŠṦšṧṢṨṣṩ ̈ÕṎõṏŪṺūṻ ̉ÂẨÊỂÔỔâẩêểôổĂẲăẳƠỞơởƯỬưử
  ̌ÜǙüǚ ̣ƠỢơợƯỰưự ͂ϊῗϋῧἀἆἁἇἈἎἉἏἠἦἡἧἨἮἩἯἰἶἱἷἸἾἹἿὐὖὑὗὙὟὠὦὡὧὨὮὩὯ
  ͅάᾴήῄώῴἀᾀἁᾁἈᾈἉᾉἠᾐἡᾑἨᾘἩᾙὠᾠὡᾡὨᾨὩᾩὰᾲὴῂὼῲᾶᾷῆῇῶῷ ೕೊೋ ්ොෝ
  ͅἂᾂἃᾃἄᾄἅᾅἆᾆἇᾇἊᾊἋᾋἌᾌἍᾍἎᾎἏᾏἢᾒἣᾓἤᾔἥᾕἦᾖἧᾗἪᾚἫᾛἬᾜἭᾝἮᾞἯᾟὢᾢὣᾣὤᾤὥᾥὦᾦὧᾧὪᾪὫᾫὬᾬὭᾭὮᾮὯᾯ"

/-- Combining marks by their position: a class, then the first of each run of marks, with how
many there are. -/
def combiningRows : List (List Nat) := hexRows
  "1,334,5,1cd4,1,1ce2,7,20d2,2,20d8,3,20e5,2,20ea,2,10a39,1,16af0,5,1bc9e,1,1d167,3 6,16ff0,2
  7,93c,1,9bc,1,a3c,1,abc,1,b3c,1,c3c,1,cbc,1,1037,1,1b34,1,1be6,1,1c37,1,a9b3,1,110ba,1,11173,1
  7,111ca,1,11236,1,112e9,1,1133b,2,11446,1,114c3,1,115c0,1,116b7,1,1183a,1,11943,1,11d42,1
  7,1e94a,1 8,3099,2
  9,94d,1,9cd,1,a4d,1,acd,1,b4d,1,bcd,1,c4d,1,ccd,1,d3b,2,d4d,1,dca,1,e3a,1,eba,1,f84,1,1039,2
  9,1714,2,1734,1,17d2,1,1a60,1,1b44,1,1baa,2,1bf2,2,2d7f,1,a806,1,a82c,1,a8c4,1,a953,1,a9c0,1
  9,aaf6,1,abed,1,10a3f,1,11046,1,11070,1,1107f,1,110b9,1,11133,2,111c0,1,11235,1,112ea,1
  9,1134d,1,11442,1,114c2,1,115bf,1,1163f,1,116b6,1,1172b,1,11839,1,1193d,2,119e0,1,11a34,1
  9,11a47,1,11a99,1,11c3f,1,11d44,2,11d97,1 a,5b0,1 b,5b1,1 c,5b2,1 d,5b3,1 e,5b4,1 f,5b5,1
  10,5b6,1 11,5b7,1 12,5b8,1,5c7,1 13,5b9,2 14,5bb,1 15,5bc,1 16,5bd,1 17,5bf,1 18,5c1,1 19,5c2,1
  1a,fb1e,1 1b,64b,1,8f0,1 1c,64c,1,8f1,1 1d,64d,1,8f2,1 1e,618,1,64e,1 1f,619,1,64f,1
  20,61a,1,650,1 21,651,1 22,652,1 23,670,1 24,711,1 54,c55,1 5b,c56,1 67,e38,2 6b,e48,4 76,eb8,2
  7a,ec8,4 81,f71,1 82,f72,1,f7a,4,f80,1 84,f74,1 ca,321,2,327,2,1dd0,1 d6,1dce,1
  d8,31b,1,f39,1,1d165,2,1d16e,5 da,1dfa,1,302a,1
  dc,316,4,31c,5,323,4,329,b,339,4,347,3,34d,2,353,4,359,2,591,1,596,1,59b,1,5a2,6,5aa,1,5c5,1
  dc,655,2,65c,1,65f,1,6e3,1,6ea,1,6ed,1,731,1,734,1,737,3,73b,2,73e,1,742,1,744,1,746,1,748,1
  dc,7f2,1,7fd,1,859,3,899,3,8cf,5,8e3,1,8e6,1,8e9,1,8ed,3,8f6,1,8f9,2,952,1,f18,2,f35,1,f37,1
  dc,fc6,1,108d,1,193b,1,1a18,1,1a7f,1,1ab5,6,1abd,1,1abf,2,1ac3,2,1aca,1,1b6c,1,1cd5,5,1cdc,4
  dc,1ced,1,1dc2,1,1dca,1,1dcf,1,1df9,1,1dfd,1,1dff,1,20e8,1,20ec,4,a92b,3,aab4,1,fe27,7,101fd,1
  dc,102e0,1,10a0d,1,10a3a,1,10ae6,1,10f46,2,10f4b,1,10f4d,4,10f83,1,10f85,1,1d17b,8,1d18a,2
  dc,1e8d0,7 de,59a,1,5ad,1,1939,1,302d,1 e0,302e,2 e2,1d16d,1 e4,5ae,1,18a9,1,1df7,2,302b,1
  e6,300,15,33d,8,346,1,34a,3,350,3,357,1,35b,1,363,d,483,5,592,4,597,3,59c,6,5a8,2,5ab,2,5af,1
  e6,5c4,1,610,8,653,2,657,5,65d,2,6d6,7,6df,4,6e4,1,6e7,2,6eb,2,730,1,732,2,735,2,73a,1,73d,1
  e6,73f,3,743,1,745,1,747,1,749,2,7eb,7,7f3,1,816,4,81b,9,825,3,829,5,898,1,89c,4,8ca,5,8d4,e
  e6,8e4,2,8e7,2,8ea,3,8f3,3,8f7,2,8fb,5,951,1,953,2,9fe,1,f82,2,f86,2,135d,3,17dd,1,193a,1
  e6,1a17,1,1a75,8,1ab0,5,1abb,2,1ac1,2,1ac5,5,1acb,4,1b6b,1,1b6d,7,1cd0,3,1cda,2,1ce0,1,1cf4,1
  e6,1cf8,2,1dc0,2,1dc3,7,1dcb,2,1dd1,25,1dfb,1,1dfe,1,20d0,2,20d4,4,20db,2,20e1,1,20e7,1,20e9,1
  e6,20f0,1,2cef,3,2de0,20,a66f,1,a674,a,a69e,2,a6f0,2,a8e0,12,aab0,1,aab2,2,aab7,2,aabe,2
  e6,aac1,1,fe20,7,fe2e,2,10376,5,10a0f,1,10a38,1,10ae5,1,10d24,4,10eab,2,10f48,3,10f4c,1
  e6,10f82,1,10f84,1,11100,3,11366,7,11370,5,1145e,1,16b30,7,1d185,5,1d1aa,4,1d242,3,1e000,7
  e6,1e008,11,1e01b,7,1e023,2,1e026,5,1e130,7,1e2ae,1,1e2ec,4,1e944,6
  e8,315,1,31a,1,358,1,1df6,1,302c,1 e9,35c,1,35f,1,362,1,1dfc,1 ea,35d,2,360,2,1dcd,1 f0,345,1"

/-- The numbers of a row two by two. -/
def pairsOf : List Nat → List (Nat × Nat)
  | first :: second :: rest => (first, second) :: pairsOf rest
  | _ => []

/-- All pairs that compose: the first, the second, the composed character. -/
def composedTriples : List (Nat × Nat × Nat) :=
  compositionRows.flatMap fun row =>
    match row with
    | second :: pairs => (pairsOf pairs).map fun (first, whole) => (first, second, whole)
    | [] => []

/-- The decompositions as a map. -/
def decompositions : Std.HashMap Nat (List Nat) :=
  let runs := counterpartRuns.foldl (fun map row =>
    match row with
    | [source, target, count] =>
        (List.range count).foldl (fun map i => map.insert (source + i) [target + i]) map
    | _ => map) (∅ : Std.HashMap Nat (List Nat))
  let listed := counterpartLists.foldl (fun map row =>
    match row with
    | source :: digit :: targets =>
        let width := digit - '0'.toNat
        (List.range (targets.length / width)).foldl
          (fun map i => map.insert (source + i) ((targets.drop (i * width)).take width)) map
    | _ => map) runs
  composedTriples.foldl (fun map (first, second, whole) =>
    map.insert whole (map.getD first [first] ++ map.getD second [second])) listed

/-- The compositions as a map. -/
def compositions : Std.HashMap (Nat × Nat) Nat :=
  composedTriples.foldl (fun map (first, second, whole) => map.insert (first, second) whole)
    (∅ : Std.HashMap (Nat × Nat) Nat)

/-- The combining classes as a map. -/
def combiningClasses : Std.HashMap Nat Nat :=
  combiningRows.foldl (fun map row =>
    match row with
    | order :: marks =>
        (pairsOf marks).foldl (fun map (first, count) =>
          (List.range count).foldl (fun map i => map.insert (first + i) order) map) map
    | [] => map) (∅ : Std.HashMap Nat Nat)

/-- The combining class of a code point; zero for a character that does not combine. -/
def combiningClass (point : Nat) : Nat := combiningClasses.getD point 0

/-- The full decomposition of a code point.  Hangul syllables are decomposed by arithmetic. -/
def decompose (point : Nat) : List Nat :=
  if 0xAC00 ≤ point ∧ point ≤ 0xD7A3 then
    let index := point - 0xAC00
    let tail := index % 28
    [0x1100 + index / 588, 0x1161 + index % 588 / 28] ++
      (if tail = 0 then [] else [0x11A7 + tail])
  else decompositions.getD point [point]

/-- Insert a mark into a run of marks after all marks of the same or a lower class. -/
def insertMark (mark : Nat) : List Nat → List Nat
  | [] => [mark]
  | other :: rest =>
      if combiningClass mark < combiningClass other then mark :: other :: rest
      else other :: insertMark mark rest

/-- Canonical order: each run of marks is sorted stably by class. -/
def orderMarks (points : List Nat) : List Nat :=
  let step := fun (state : List Nat × List Nat) (point : Nat) =>
    if combiningClass point = 0 then (state.1 ++ state.2 ++ [point], [])
    else (state.1, insertMark point state.2)
  let state := points.foldl step ([], [])
  state.1 ++ state.2

/-- The composition of two code points, if there is one. -/
def composePair? (first second : Nat) : Option Nat :=
  if 0x1100 ≤ first ∧ first ≤ 0x1112 ∧ 0x1161 ≤ second ∧ second ≤ 0x1175 then
    some (0xAC00 + ((first - 0x1100) * 21 + (second - 0x1161)) * 28)
  else if 0xAC00 ≤ first ∧ first ≤ 0xD7A3 ∧ (first - 0xAC00) % 28 = 0 ∧
      0x11A8 ≤ second ∧ second ≤ 0x11C2 then
    some (first + (second - 0x11A7))
  else compositions[(first, second)]?

/-- The state of composition: what is finished, the last starter, and what follows it. -/
structure Composition where
  finished : List Nat := []
  starter : Option Nat := none
  pending : List Nat := []

/-- Take one more code point into a composition. -/
def Composition.push (state : Composition) (point : Nat) : Composition :=
  let order := combiningClass point
  match state.starter with
  | none =>
      if order = 0 then { state with starter := some point }
      else { state with finished := state.finished ++ [point] }
  | some starter =>
      let blocked := match state.pending.getLast? with
        | none => false
        | some last => combiningClass last = 0 || order ≤ combiningClass last
      match if blocked then none else composePair? starter point with
      | some whole => { state with starter := some whole }
      | none =>
          if order = 0 then
            { finished := state.finished ++ [starter] ++ state.pending,
              starter := some point, pending := [] }
          else { state with pending := state.pending ++ [point] }

/-- Everything a composition has taken in, composed. -/
def Composition.result (state : Composition) : List Nat :=
  state.finished ++ state.starter.toList ++ state.pending

/-- Compose neighbouring code points wherever a composed character exists. -/
def compose (points : List Nat) : List Nat :=
  (points.foldl Composition.push {}).result

/-- The spelling that all compatible spellings of a text share. -/
def compatibilityForm (text : List Char) : List Char :=
  if text.all (fun c => decide (c.toNat < 128)) then text
  else (compose (orderMarks (text.flatMap fun c => decompose c.toNat))).map Char.ofNat

end Text
end CodeQuality
